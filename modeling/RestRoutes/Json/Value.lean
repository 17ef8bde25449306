import RestRoutes.Table

namespace RestRoutes

/-- Integers that fit 64 bits, signed or unsigned, are exact; all other numbers are binary64. -/
inductive JsonNumber where
  | integer (n : Int)
  | decimal (x : Float)
  deriving Inhabited

inductive Json where
  | null
  | bool (b : Bool)
  | number (n : JsonNumber)
  | string (s : String)
  | array (items : List Json)
  | object (members : List (String × Json))
  deriving Inhabited

namespace Json

/-- A member of an object; other values have none. -/
def get? : Json → String → Option Json
  | .object members, name => Table.get? members name
  | _, _ => none

def string? : Json → Option String
  | .string s => some s
  | _ => none

def members? : Json → Option (Table Json)
  | .object members => some members
  | _ => none

end Json

end RestRoutes
