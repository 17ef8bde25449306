namespace RestRoutes.Decimal

/-- The positive number `0.d₁d₂… · 10 ^ point`, where `digits` are the decimal digits of `d₁d₂…`. -/
structure Positional where
  digits : List Char
  point : Int

/-- A positive binary64 number `mantissa · 2 ^ exponent`. `wide` says that the gap below it is as
wide as the gap above, which fails only at a power of two. -/
structure Binary where
  mantissa : Nat
  exponent : Int
  wide : Bool

/-- The leading bit of a mantissa, which is not written. -/
def hiddenBit : Nat := 0x10000000000000

def Binary.ofBits (bits : Nat) : Binary :=
  let fraction : Nat := bits % hiddenBit
  let power : Nat := bits / hiddenBit % 0x800
  if power = 0 then ⟨fraction, -1074, true⟩
  else ⟨hiddenBit + fraction, (power : Int) - 1075, fraction ≠ 0 || power = 1⟩

/-- A power; one when the exponent is negative. -/
def powInt (base : Nat) (e : Int) : Nat := Nat.pow base e.toNat

/-- The place of the decimal point of `num / den`: the least `p` with `num / den < 10 ^ p`. -/
def pointOf (num den : Nat) : Int :=
  let guess : Int := (Nat.toDigits 10 num).length - (Nat.toDigits 10 den).length
  if num * powInt 10 (-guess) < den * powInt 10 guess then guess else guess + 1

/-- The grid point nearest to `num / den` among its two neighbours on the grid of `10 ^ grid`, if
one of them lies between `low / den` and `high / den`; the bounds count when `ends` says so. Of two
that do, the nearer wins, and an exact tie goes to the even one. -/
def nearest? (num low high den : Nat) (ends : Bool) (grid : Int) : Option Nat :=
  let up := powInt 10 (-grid)
  let unit := den * powInt 10 grid
  let below := num * up / unit
  let inside (n : Nat) : Bool :=
    let v := n * unit
    if ends then low * up ≤ v && v ≤ high * up else low * up < v && v < high * up
  let twice := 2 * (num * up % unit)
  let downFirst := twice < unit || (twice = unit && below % 2 = 0)
  match inside below, inside (below + 1) with
  | true, true => some (if downFirst then below else below + 1)
  | true, false => some below
  | false, true => some (below + 1)
  | false, false => none

/-- Grids of one digit, of two, …; the first one that has a point in the interval is taken. -/
def shortestFrom (num low high den : Nat) (ends : Bool) (point : Int) : Nat → Nat → Positional
  | 0, _ => ⟨['0'], point⟩
  | left + 1, count =>
    match nearest? num low high den ends (point - count) with
    | some n =>
      let digits := Nat.toDigits 10 n
      -- Rounding up to the next power of ten moves the point.
      ⟨(digits.reverse.dropWhile (· = '0')).reverse, point + (digits.length - count : Int)⟩
    | none => shortestFrom num low high den ends point left (count + 1)

/-- Seventeen digits always tell two binary64 numbers apart. -/
def Binary.shortest (b : Binary) : Positional :=
  let up := powInt 2 (b.exponent - 2)
  let den := powInt 2 (2 - b.exponent)
  let num := 4 * b.mantissa * up
  let low := (4 * b.mantissa - if b.wide then 2 else 1) * up
  let high := (4 * b.mantissa + 2) * up
  shortestFrom num low high den (b.mantissa % 2 = 0) (pointOf num den) 18 1

end RestRoutes.Decimal
