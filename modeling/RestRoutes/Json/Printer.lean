import RestRoutes.Json.Value
import RestRoutes.Decimal.Text

namespace RestRoutes.Json

def hexDigit (n : Nat) : Char := (Nat.toDigits 16 (n % 16)).headD '0'

/-- Only the quote, the backslash and control characters are escaped. -/
def escapedChar (c : Char) : List Char :=
  match c with
  | '"' => ['\\', '"']
  | '\\' => ['\\', '\\']
  | '\x08' => ['\\', 'b']
  | '\x0c' => ['\\', 'f']
  | '\n' => ['\\', 'n']
  | '\r' => ['\\', 'r']
  | '\t' => ['\\', 't']
  | _ =>
    if c.toNat < 0x20 then ['\\', 'u', '0', '0', hexDigit (c.toNat / 16), hexDigit c.toNat] else [c]

def textOf (s : String) : List Char := '"' :: s.toList.flatMap escapedChar ++ ['"']

def numberText : JsonNumber → List Char
  | .integer n => (toString n).toList
  | .decimal x => Decimal.write Decimal.Positional.compact x

mutual

def print : Json → List Char
  | .null => ['n', 'u', 'l', 'l']
  | .bool true => ['t', 'r', 'u', 'e']
  | .bool false => ['f', 'a', 'l', 's', 'e']
  | .number n => numberText n
  | .string s => textOf s
  | .array items => '[' :: printItems true items ++ [']']
  | .object members => '\x7b' :: printMembers true members ++ ['\x7d']

/-- Each item but the first has a comma before it. -/
def printItems (first : Bool) : List Json → List Char
  | [] => []
  | v :: rest => (if first then [] else [',']) ++ print v ++ printItems false rest

def printMembers (first : Bool) : List (String × Json) → List Char
  | [] => []
  | (name, v) :: rest =>
    (if first then [] else [',']) ++ textOf name ++ ':' :: print v ++ printMembers false rest

end

end RestRoutes.Json
