import RestRoutes.Decimal.Text
import RestRoutes.Json.Token
import RestRoutes.Text.Quoted
import RestRoutes.Yaml.Node

namespace RestRoutes.Yaml

inductive Plain where
  | null
  | bool (b : Bool)
  | integer (n : Int)
  | float (x : Float)
  | text (s : String)

namespace Plain

def isNull (s : String) : Bool := ["null", "Null", "NULL", "~"].contains s

def bool? (s : String) : Option Bool :=
  if ["true", "True", "TRUE"].contains s then some true
  else if ["false", "False", "FALSE"].contains s then some false
  else none

/-- The digits of a number in a base, at least one. -/
def natural? (base : Nat) (s : List Char) : Option Nat := do
  let digits ← s.mapM fun c => (Json.hexValue? c).filter (· < base)
  if digits.isEmpty then none else some (digits.foldl (fun n d => n * base + d) 0)

/-- Digits behind a needless zero are text. -/
def isPadded (s : List Char) : Bool :=
  let digits := match s with
    | '-' :: s => s
    | '+' :: s => s
    | s => s
  1 < digits.length && digits.head? = some '0' && digits.all Json.isDigit

def magnitude? (s : List Char) : Option Nat :=
  match s with
  | '0' :: 'x' :: s => natural? 16 s
  | '0' :: 'o' :: s => natural? 8 s
  | '0' :: 'b' :: s => natural? 2 s
  | s => if isPadded s then none else natural? 10 s

/-- The largest integer of 128 bits. -/
def largestWide : Int := 0xffffffffffffffffffffffffffffffff

/-- The least signed integer of 128 bits, without its sign. -/
def smallestWide : Int := 0x80000000000000000000000000000000

/-- Integers of at most 128 bits, signed or not. -/
def integer? (s : String) : Option Int := do
  let n : Int ← match s.toList with
    | '-' :: s => (magnitude? s).map fun n => -n
    | '+' :: s => (magnitude? s).map fun n => n
    | s => (magnitude? s).map fun n => n
  if -smallestWide ≤ n && n ≤ largestWide then some n else none

/-- `± digits · 10 ^ e`, unless that is too large. -/
def decimal? (negative : Bool) (digits : List Char) (e : Int) : Option Float :=
  let digits := digits.dropWhile (· = '0')
  let n := digits.foldl (fun n c => n * 10 + Json.digitValue c) 0
  let size : Int := e + digits.length
  let x : Float :=
    if n = 0 || size < -400 then 0.0
    else if 0 ≤ e then if 400 < size then 1.0 / 0.0 else .ofScientific n false e.toNat
    else if 400 < size then 1.0 / 0.0
    else .ofScientific n true e.natAbs
  if x.isFinite then some (if negative then -x else x) else none

/-- The exponent of a number, zero when there is none. -/
def exponent? : List Char → Option Int
  | [] => some 0
  | c :: s =>
    if c = 'e' || c = 'E' then
      match s with
      | '-' :: s => (natural? 10 s).map fun n => -n
      | '+' :: s => (natural? 10 s).map fun n => n
      | s => (natural? 10 s).map fun n => n
    else none

def unsignedFloat? (negative : Bool) (s : List Char) : Option Float := do
  let whole := s.takeWhile Json.isDigit
  let rest := s.dropWhile Json.isDigit
  let (fraction, rest) := match rest with
    | '.' :: rest => (rest.takeWhile Json.isDigit, rest.dropWhile Json.isDigit)
    | rest => ([], rest)
  if whole.isEmpty && fraction.isEmpty then none
  decimal? negative (whole ++ fraction) ((← exponent? rest) - fraction.length)

def float? (s : String) : Option Float :=
  if [".inf", ".Inf", ".INF", "+.inf", "+.Inf", "+.INF"].contains s then some (1.0 / 0.0)
  else if ["-.inf", "-.Inf", "-.INF"].contains s then some (-1.0 / 0.0)
  else if [".nan", ".NaN", ".NAN"].contains s then some (0.0 / 0.0)
  else
    match s.toList with
    | '-' :: s => unsignedFloat? true s
    | '+' :: s => unsignedFloat? false s
    | s => unsignedFloat? false s

def ofText (s : String) : Plain :=
  if s.isEmpty || isNull s then .null
  else
    match bool? s, integer? s with
    | some b, _ => .bool b
    | none, some n => .integer n
    | none, none =>
      match if isPadded s.toList then none else float? s with
      | some x => .float x
      | none => .text s

def floatText (x : Float) : String :=
  if x.isNaN then "NaN"
  else if x.isInf then if x < 0.0 then "-inf" else "inf"
  else String.ofList (Decimal.write Decimal.Positional.plain x)

/-- The width of an integer is named when it takes more than 64 bits. -/
def described : Plain → String
  | .null => "unit value"
  | .bool b => "boolean `" ++ (if b then "true" else "false") ++ "`"
  | .integer n =>
    "integer `" ++ toString n ++ "`" ++
      (if 0xffffffffffffffff < n then " as u128"
        else if n < -0x8000000000000000 then " as i128" else "")
  | .float x => "floating point `" ++ floatText x ++ "`"
  | .text s => "string " ++ Text.quoted s

end Plain

/-- Tags with a meaning of their own. -/
inductive CoreTag where
  | bool
  | int
  | float
  | null
  deriving DecidableEq, Repr

namespace CoreTag

def ofTag? (tag : List UInt8) : Option CoreTag :=
  let named (name : String) := Text.Utf8.encode ("tag:yaml.org,2002:" ++ name).toList
  if tag = named "bool" then some .bool
  else if tag = named "int" then some .int
  else if tag = named "float" then some .float
  else if tag = named "null" then some .null
  else none

def expected : CoreTag → String
  | .bool => "a boolean"
  | .int => "an integer"
  | .float => "a float"
  | .null => "null"

/-- What a scalar with the tag stands for, if it is written so that it can. -/
def read? (t : CoreTag) (s : String) : Option Plain :=
  match t with
  | .bool => (Plain.bool? s).map .bool
  | .int => (Plain.integer? s).map .integer
  | .float => (Plain.float? s).map .float
  | .null => if Plain.isNull s then some .null else none

end CoreTag

/-- Tags that begin with an exclamation mark belong to the application. -/
def isLocalTag (tag : List UInt8) : Bool := tag.head? = some 0x21

/-- What an application's tag names, where that is text. -/
def localName? (tag : List UInt8) : Option String :=
  if isLocalTag tag then
    (Text.Utf8.decode? (if tag.length = 1 then tag else tag.drop 1)).map String.ofList
  else none

end RestRoutes.Yaml
