import RestRoutes.Json.Value
import RestRoutes.Json.Fault

namespace RestRoutes.Json

def isDigit (c : Char) : Bool := '0' ≤ c && c ≤ '9'

def digitValue (c : Char) : Nat := c.toNat - '0'.toNat

/-- The largest integer of 64 bits. -/
def wordLimit : Nat := 0xffffffffffffffff

/-- The least signed integer of 64 bits, without its sign. -/
def negativeLimit : Nat := 0x8000000000000000

/-- Takes digits into `significand` while the result fits 64 bits: the result and how many were taken. -/
def gather (significand taken : Nat) : List Char → Nat × Nat
  | [] => (significand, taken)
  | c :: s =>
    if isDigit c && significand * 10 + digitValue c ≤ wordLimit then
      gather (significand * 10 + digitValue c) (taken + 1) s
    else (significand, taken)

def countDigits (s : List Char) : Nat := (s.takeWhile isDigit).length

def powerOfTen (n : Nat) : Float := Float.ofScientific 1 false n

/-- `x · 10 ^ e` in steps of at most 308 powers, each rounded. -/
def scale (x : Float) (e : Int) : Nat → Option Float
  | 0 => some x
  | steps + 1 =>
    if e.natAbs ≤ 308 then
      if 0 ≤ e then
        let y := x * powerOfTen e.toNat
        if y.isInf then none else some y
      else some (x / powerOfTen e.natAbs)
    else if x == 0 then some x
    else if 0 ≤ e then none
    else scale (x / powerOfTen 308) (e + 308) steps

/-- The number `± significand · 10 ^ e`, `none` when it is too large. Past four steps nothing but
zero is left. -/
def decimalOf (negative : Bool) (significand : Nat) (e : Int) : Option Float :=
  (scale (Float.ofNat significand) e 5).map fun x => if negative then -x else x

/-- The largest exponent that can be written. -/
def exponentLimit : Nat := 0x7fffffff

/-- Reads the digits of an exponent; past the limit, the number of digits read until then. -/
def gatherExponent (value taken : Nat) : List Char → Except Nat (Nat × Nat)
  | [] => .ok (value, taken)
  | c :: s =>
    if isDigit c then
      let value := value * 10 + digitValue c
      if value ≤ exponentLimit then gatherExponent value (taken + 1) s else .error (taken + 1)
    else .ok (value, taken)

/-- A number and how many characters it takes, or a fault and the characters read until it shows. -/
abbrev NumberScan := Except FaultAt (JsonNumber × Nat)

def finishDecimal (negative : Bool) (significand : Nat) (e : Int) (read : Nat) : NumberScan :=
  match decimalOf negative significand e with
  | some x => .ok (.decimal x, read)
  | none => .error ⟨.numberOutOfRange, read⟩

/-- The part behind `e`; `read` characters stand before `s`. -/
def scanExponent (negative : Bool) (significand : Nat) (e : Int) (read : Nat) (s : List Char) :
    NumberScan :=
  let (down, s, read) := match s with
    | '+' :: s => (false, s, read + 1)
    | '-' :: s => (true, s, read + 1)
    | s => (false, s, read)
  match s with
  | [] => .error ⟨.endInValue, read⟩
  | c :: _ =>
    if isDigit c then
      match gatherExponent 0 0 s with
      | .ok (value, taken) =>
        let total := if down then e - value else e + value
        finishDecimal negative significand total (read + taken)
      | .error taken =>
        if significand ≠ 0 && !down then .error ⟨.numberOutOfRange, read + taken⟩
        else .ok (.decimal (if negative then -0.0 else 0.0), read + countDigits s)
    else .error ⟨.invalidNumber, read + 1⟩

/-- What may follow the digits of a number: an exponent or its end. -/
def scanTail (negative : Bool) (significand : Nat) (e : Int) (read : Nat) (s : List Char) : NumberScan :=
  match s with
  | 'e' :: s => scanExponent negative significand e (read + 1) s
  | 'E' :: s => scanExponent negative significand e (read + 1) s
  | _ => finishDecimal negative significand e read

/-- The part behind the point. -/
def scanFraction (negative : Bool) (significand : Nat) (e : Int) (read : Nat) (s : List Char) :
    NumberScan :=
  let (significand, taken) := gather significand 0 s
  let digits := countDigits s
  if digits = 0 then
    match s with
    | [] => .error ⟨.endInValue, read⟩
    | _ => .error ⟨.invalidNumber, read + 1⟩
  else scanTail negative significand (e - taken) (read + digits) (s.drop digits)

/-- A whole number: the exact integer, or a decimal when it has a sign and no value, does not fit, or
goes on. -/
def scanWhole (negative : Bool) (read : Nat) (s : List Char) : NumberScan :=
  let (significand, taken) := gather 0 0 s
  let digits := countDigits s
  let extra : Int := digits - taken
  match s.drop digits with
  | '.' :: rest => scanFraction negative significand extra (read + digits + 1) rest
  | rest =>
    let more := match rest with
      | 'e' :: _ => true
      | 'E' :: _ => true
      | _ => false
    if more || extra ≠ 0 then scanTail negative significand extra (read + digits) rest
    else if !negative then .ok (.integer significand, read + digits)
    else if 0 < significand && significand ≤ negativeLimit then .ok (.integer (-significand), read + digits)
    else .ok (.decimal (-Float.ofNat significand), read + digits)

/-- A number without its sign; a leading zero stands alone. -/
def scanUnsigned (negative : Bool) (read : Nat) (s : List Char) : NumberScan :=
  match s with
  | [] => .error ⟨.endInValue, read⟩
  | '0' :: c :: rest =>
    if isDigit c then .error ⟨.invalidNumber, read + 2⟩
    else scanWhole negative read ('0' :: c :: rest)
  | c :: rest =>
    if isDigit c then scanWhole negative read (c :: rest) else .error ⟨.invalidNumber, read + 1⟩

def scanNumber (s : List Char) : NumberScan :=
  match s with
  | '-' :: rest => scanUnsigned true 1 rest
  | _ => scanUnsigned false 0 s

end RestRoutes.Json
