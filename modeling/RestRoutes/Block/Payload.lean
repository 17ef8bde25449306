import RestRoutes.Json.Value

namespace RestRoutes

structure FieldEntry where
  type : String
  description : String
  deriving DecidableEq, Repr, Inhabited

abbrev FieldTable := Table FieldEntry

/-- The fields that every response has, in their order. -/
def envelope : FieldTable := [
  ("wrench_api_request_success", ⟨"bool", "true if the request succeeded, false otherwise"⟩),
  ("failure_cause",
    ⟨"string", "human-readable description of the failure (only set when the request failed)"⟩)]

structure Payload where
  function : Option String
  purpose : Option String
  input : Option FieldTable
  output : FieldTable
  deriving DecidableEq, Repr, Inhabited

inductive PayloadError where
  | notObject
  | documentationNotObject
  | notString (member : String)
  | notTable (member : String)
  | badField (name member : String)
  deriving DecidableEq, Repr

def PayloadError.message : PayloadError → String
  | .notObject => "block payload must be a JSON object"
  | .documentationNotObject => "'documentation' must be an object"
  | .notString member => "'" ++ member ++ "' must be a string"
  | .notTable member => "'" ++ member ++ "' must be an object of fields"
  | .badField name member =>
    "field '" ++ name ++ "' in '" ++ member ++ "' must be [\"type\", \"description\"]"

namespace Payload

/-- An absent member and a null one say the same. -/
def string? (members : Table Json) (name : String) : Except PayloadError (Option String) :=
  match members.get? name with
  | none => .ok none
  | some .null => .ok none
  | some (.string s) => .ok (some s)
  | some _ => .error (.notString name)

/-- A field is a pair of type and description, or an object that may leave the description out. -/
def field? : Json → Option FieldEntry
  | .array [.string type, .string description] => some ⟨type, description⟩
  | .object members =>
    match Table.get? members "type" with
    | some (.string type) =>
      some ⟨type, ((Table.get? members "description").bind Json.string?).getD ""⟩
    | _ => none
  | _ => none

def fields (member : String) (entries : Table Json) : Except PayloadError FieldTable :=
  entries.mapM fun (name, v) =>
    match field? v with
    | some entry => .ok (name, entry)
    | none => .error (.badField name member)

def table? (members : Table Json) (name : String) : Except PayloadError (Option FieldTable) :=
  match members.get? name with
  | none => .ok none
  | some .null => .ok none
  | some (.object entries) => some <$> fields name entries
  | some _ => .error (.notTable name)

/-- The envelope fields come first; a declared field of such a name takes that place. -/
def withEnvelope (declared : FieldTable) : FieldTable := envelope.putAll declared

def ofJson (v : Json) : Except PayloadError Payload := do
  let some root := v.members? | throw .notObject
  let function ← string? root "REST_func"
  let documentation ← match root.get? "documentation" with
    | none => pure root
    | some (.object inner) => pure inner
    | some _ => throw .documentationNotObject
  let purpose ← string? documentation "purpose"
  let input ← table? documentation "json_input"
  let output ← table? documentation "json_output"
  return ⟨function, purpose, input, withEnvelope (output.getD [])⟩

end Payload

end RestRoutes
