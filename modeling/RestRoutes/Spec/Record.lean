import RestRoutes.Json.Printer
import RestRoutes.Text.Quoted

namespace RestRoutes

inductive Mismatch where
  | type (found : Json) (expected : String)
  | length (found : Nat) (expected : String)

/-- What a value is, for a message. -/
def Json.described : Json → String
  | .null => "null"
  | .bool b => "boolean `" ++ (if b then "true" else "false") ++ "`"
  | .number (.integer n) => "integer `" ++ toString n ++ "`"
  | .number (.decimal x) =>
    "floating point `" ++ String.ofList (Json.numberText (.decimal x)) ++ "`"
  | .string s => "string " ++ Text.quoted s
  | .array _ => "sequence"
  | .object _ => "map"

def Mismatch.message : Mismatch → String
  | .type found expected => "invalid type: " ++ found.described ++ ", expected " ++ expected
  | .length found expected => "invalid length " ++ toString found ++ ", expected " ++ expected

/-- A field of a record: its name, how a value is written into the record, and whether a list may end
before it. -/
structure Field (ρ : Type) where
  name : String
  write : Json → ρ → Except Mismatch ρ
  omissible : Bool := false

structure RecordShape (ρ : Type) where
  title : String
  fields : List (Field ρ)

namespace RecordShape

variable {ρ : Type}

def described (s : RecordShape ρ) : String := "struct " ++ s.title

def count (s : RecordShape ρ) : String :=
  s.described ++ " with " ++ toString s.fields.length ++
    if s.fields.length = 1 then " element" else " elements"

/-- Members in the order in which they stand; unknown ones are passed over. -/
def readMembers (s : RecordShape ρ) (r : ρ) (members : Table Json) : Except Mismatch ρ :=
  members.foldlM (fun r (name, v) =>
    match s.fields.find? (·.name = name) with
    | some f => f.write v r
    | none => .ok r) r

/-- Items in the order of the fields; `done` of them are read. -/
def readItems (s : RecordShape ρ) (r : ρ) (done : Nat) :
    List (Field ρ) → List Json → Except Mismatch ρ
  | [], [] => .ok r
  | [], items => .error (.length (done + items.length) "fewer elements in array")
  | f :: fields, [] =>
    if f.omissible then readItems s r (done + 1) fields [] else .error (.length done s.count)
  | f :: fields, v :: items =>
    match f.write v r with
    | .ok r => readItems s r (done + 1) fields items
    | .error e => .error e

def read (s : RecordShape ρ) (r : ρ) : Json → Except Mismatch ρ
  | .object members => s.readMembers r members
  | .array items => s.readItems r 0 s.fields items
  | v => .error (.type v s.described)

end RecordShape

namespace Json

/-- A value that may be null. -/
def optional {α : Type} (read : Json → Except Mismatch α) : Json → Except Mismatch (Option α)
  | .null => .ok none
  | v => (read v).map some

def readString : Json → Except Mismatch String
  | .string s => .ok s
  | v => .error (.type v "a string")

def readList {α : Type} (read : Json → Except Mismatch α) : Json → Except Mismatch (List α)
  | .array items => items.mapM read
  | v => .error (.type v "a sequence")

def readTable {α : Type} (read : Json → Except Mismatch α) : Json → Except Mismatch (Table α)
  | .object members => members.mapM fun (name, v) => return (name, ← read v)
  | v => .error (.type v "a map")

end Json

end RestRoutes
