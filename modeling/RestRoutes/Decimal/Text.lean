import RestRoutes.Decimal.Shortest

namespace RestRoutes.Decimal

def zeros (n : Nat) : List Char := List.replicate n '0'

/-- Digits around the point, with at least one digit on each side of it. -/
def Positional.plain (p : Positional) : List Char :=
  let n : Int := p.digits.length
  if n ≤ p.point then p.digits ++ zeros (p.point - n).toNat ++ ['.', '0']
  else if 0 < p.point then p.digits.take p.point.toNat ++ '.' :: p.digits.drop p.point.toNat
  else '0' :: '.' :: zeros (-p.point).toNat ++ p.digits

/-- An exponent has a sign and at least two digits. -/
def exponentText (e : Int) : List Char :=
  let digits := Nat.toDigits 10 e.natAbs
  (if e < 0 then '-' else '+') :: (if digits.length < 2 then '0' :: digits else digits)

/-- One digit before the point, and none after it when there is only one. -/
def Positional.scientific (p : Positional) : List Char :=
  let fraction := p.digits.drop 1
  p.digits.take 1 ++ (if fraction.isEmpty then [] else '.' :: fraction) ++
    'e' :: exponentText (p.point - 1)

/-- Positional as long as the point stands within sixteen digits or behind at most four zeros. -/
def Positional.compact (p : Positional) : List Char :=
  if -5 < p.point && p.point ≤ 16 then p.plain else p.scientific

def write (style : Positional → List Char) (x : Float) : List Char :=
  let bits := x.toBits.toNat
  let sign := if bits / 0x8000000000000000 = 1 then ['-'] else []
  let binary := Binary.ofBits bits
  sign ++ if binary.mantissa = 0 then ['0', '.', '0'] else style binary.shortest

end RestRoutes.Decimal
