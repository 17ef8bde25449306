import RestRoutes.Json.Pointer
import RestRoutes.Text.Search

namespace RestRoutes.Json

inductive ReferenceError where
  | notString
  | cyclic (chain : List String)
  | tooDeep (reference : String)
  | external (reference : String)
  | malformed (reference : String)
  | unresolved (reference : String)
  deriving DecidableEq, Repr

/-- How many references may be followed inside one another. -/
def referenceLimit : Nat := 64

def ReferenceError.message : ReferenceError → String
  | .notString => "'$ref' must be a string"
  | .cyclic chain => "Cyclic $ref detected: " ++ " -> ".intercalate chain
  | .tooDeep r =>
    "$ref nesting deeper than " ++ toString referenceLimit ++ " while resolving '" ++ r ++ "'"
  | .external r => "External $ref '" ++ r ++ "' is not supported; flatten the document first"
  | .malformed r => "Malformed $ref '" ++ r ++ "': fragment must be a JSON pointer"
  | .unresolved r => "Unresolved $ref '" ++ r ++ "'"

/-- The decoded path of a reference: nothing behind `#` for the whole document, else segments behind
slashes. -/
def path (reference : String) : Except ReferenceError (List (List Char)) :=
  match reference.toList with
  | '#' :: [] => .ok []
  | '#' :: '/' :: fragment => .ok ((fragment.splitOn '/').map decodeSegment)
  | '#' :: _ => .error (.malformed reference)
  | _ => .error (.external reference)

/-- The value that a reference names. What was decoded is escaped again, for a pointer. -/
def target (root : Json) (reference : String) : Except ReferenceError Json := do
  match root.pointer? (pointerTo (← path reference)) with
  | some v => return v
  | none => throw (.unresolved reference)

def refName : String := "$ref"

mutual

/-- Expands a value when `follow` gives the expansion of what a reference names. -/
def expandWith (follow : String → Except ReferenceError Json) : Json → Except ReferenceError Json
  | .object members => do
    match Table.get? members refName with
    | some (.string reference) =>
      match ← follow reference with
      | .object base => return .object (← expandSiblings follow base members)
      | v => return v
    | some _ => throw .notString
    | none => return .object (← expandMembers follow members)
  | .array items => return .array (← expandItems follow items)
  | v => return v

def expandItems (follow : String → Except ReferenceError Json) :
    List Json → Except ReferenceError (List Json)
  | [] => return []
  | v :: rest => return (← expandWith follow v) :: (← expandItems follow rest)

def expandMembers (follow : String → Except ReferenceError Json) :
    List (String × Json) → Except ReferenceError (List (String × Json))
  | [] => return []
  | (name, v) :: rest => return (name, ← expandWith follow v) :: (← expandMembers follow rest)

/-- Writes the members beside a reference over the members of what it names. -/
def expandSiblings (follow : String → Except ReferenceError Json) (base : Table Json) :
    List (String × Json) → Except ReferenceError (Table Json)
  | [] => return base
  | (name, v) :: rest => do
    if name = refName then expandSiblings follow base rest
    else expandSiblings follow (base.put name (← expandWith follow v)) rest

end

/-- The expansion of what a reference names, with `opened` the references being followed, outermost
first, and `left` more of them allowed. -/
def followFrom (root : Json) (opened : List String) :
    (left : Nat) → String → Except ReferenceError Json
  | left, reference =>
    if reference ∈ opened then .error (.cyclic (opened ++ [reference]))
    else
      match left with
      | 0 => .error (.tooDeep reference)
      | left + 1 => do
        let v ← target root reference
        expandWith (followFrom root (opened ++ [reference]) left) v

/-- A document with every reference in it replaced by what it names. -/
def dereference (root : Json) : Except ReferenceError Json :=
  expandWith (followFrom root [] referenceLimit) root

end RestRoutes.Json
