import RestRoutes.Json.Reader
import RestRoutes.Json.Reference
import RestRoutes.Spec.Error
import RestRoutes.Spec.Operation
import RestRoutes.Text.Blank
import RestRoutes.Text.Search

namespace RestRoutes

structure InfoRecord where
  title : Option String := none
  version : Option String := none

structure ParameterRecord where
  name : Option String := none
  location : Option String := none
  schema : Option Json := none

structure MediaRecord where
  schema : Option Json := none

structure BodyRecord where
  content : Table MediaRecord := []

structure OperationRecord where
  id : Option String := none
  summary : Option String := none
  parameters : List ParameterRecord := []
  body : Option BodyRecord := none

def InfoRecord.shape : RecordShape InfoRecord where
  title := "ShimInfo"
  fields := [
    { name := "title", write := fun v r => return { r with title := ← Json.optional Json.readString v } },
    { name := "version",
      write := fun v r => return { r with version := ← Json.optional Json.readString v } }]

def ParameterRecord.shape : RecordShape ParameterRecord where
  title := "ShimParameter"
  fields := [
    { name := "name", write := fun v r => return { r with name := ← Json.optional Json.readString v } },
    { name := "in",
      write := fun v r => return { r with location := ← Json.optional Json.readString v } },
    { name := "schema", write := fun v r => return { r with schema := ← Json.optional .ok v } }]

def MediaRecord.shape : RecordShape MediaRecord where
  title := "ShimMediaType"
  fields := [
    { name := "schema", write := fun v r => return { r with schema := ← Json.optional .ok v } }]

def BodyRecord.shape : RecordShape BodyRecord where
  title := "ShimRequestBody"
  fields := [
    { name := "content"
      write := fun v r => return { r with content := ← Json.readTable (MediaRecord.shape.read {}) v }
      omissible := true }]

def OperationRecord.shape : RecordShape OperationRecord where
  title := "ShimOperation"
  fields := [
    { name := "operationId",
      write := fun v r => return { r with id := ← Json.optional Json.readString v } },
    { name := "summary",
      write := fun v r => return { r with summary := ← Json.optional Json.readString v } },
    { name := "parameters"
      write := fun v r =>
        return { r with parameters := ← Json.readList (ParameterRecord.shape.read {}) v }
      omissible := true },
    { name := "requestBody",
      write := fun v r =>
        return { r with body := ← Json.optional (BodyRecord.shape.read {}) v } }]

/-- The type of a schema. Of several types the first that is not `null` counts. -/
def TypeName.ofSchema? (schema : Json) : Option TypeName := do
  let type ← match ← schema.get? "type" with
    | .string s => some s
    | .array items => (items.filterMap Json.string?).find? (· ≠ "null")
    | _ => none
  return ⟨type, (schema.get? "format").bind Json.string?⟩

/-- A parameter of the operation or path item `owner`. Without a location it stands in the path. -/
def ParameterRecord.resolve (path owner : String) (r : ParameterRecord) :
    Except SpecError Parameter := do
  let some name := r.name | throw (.noParameterName owner path)
  let location ← match r.location with
    | some found =>
      match ParameterLocation.ofName? found with
      | some l => pure l
      | none => throw (.unknownLocation name owner found)
    | none => pure .path
  let some type := r.schema.bind TypeName.ofSchema? | throw (.noParameterType name owner)
  return ⟨name, location, type⟩

/-- The JSON media type of a body, or else its first one. -/
def BodyRecord.media? (b : BodyRecord) : Option MediaRecord :=
  match b.content.get? "application/json" with
  | some m => some m
  | none => b.content.head?.map Prod.snd

/-- The properties of a body; none at all when it has no schema. -/
def BodyRecord.resolve (owner : String) (b : BodyRecord) :
    Except SpecError (Option (Table TypeName)) := do
  let some schema := b.media?.bind (·.schema) | return none
  let some properties := (schema.get? "properties").bind Json.members? | return some []
  some <$> properties.mapM fun (name, property) =>
    match TypeName.ofSchema? property with
    | some type => return (name, type)
    | none => throw (.noPropertyType name owner)

/-- Adds the parameters of a path item that no earlier one overrides. -/
def inherit (own : List Parameter) (common : List Parameter) : List Parameter :=
  common.foldl (fun parameters p =>
    if parameters.any fun q => q.name = p.name && q.location = p.location then parameters
    else parameters ++ [p]) own

/-- One operation of a path item with the parameters `common`. -/
def OperationRecord.resolve (path : String) (method : Method) (common : List Parameter)
    (r : OperationRecord) : Except SpecError Operation := do
  let some id := r.id.filter fun id => !Text.allBlank id.toList | throw (.noOperationId method path)
  let own ← r.parameters.mapM (·.resolve path id)
  let body ← match r.body with
    | some b => b.resolve id
    | none => pure none
  return {
    path, method, id, body
    parameters := inherit own common
    summary := r.summary }

/-- The operation under a member of a path item; `none` when the member is no method. -/
def readOperation (path : String) (common : List Parameter) (member : String) (v : Json) :
    Except SpecError (Option Operation) :=
  match Method.ofKey? member with
  | none => return none
  | some method =>
    match OperationRecord.shape.read {} v with
    | .error e => throw (.operation method path e)
    | .ok r => some <$> r.resolve path method common

/-- Operation ids are unique in a document. -/
def addOperation (done : List Operation) : Option Operation → Except SpecError (List Operation)
  | none => return done
  | some o =>
    if done.any (·.id = o.id) then throw (.duplicateOperationId o.id) else return done ++ [o]

/-- The parameters that all operations of a path item share. -/
def commonParameters (path : String) (item : Table Json) : Except SpecError (List Parameter) :=
  match item.get? "parameters" with
  | none => return []
  | some v =>
    match Json.readList (ParameterRecord.shape.read {}) v with
    | .error e => throw (.pathParameters path e)
    | .ok records => records.mapM (·.resolve path "*")

def addPathItem (done : List Operation) (path : String) (item : Json) :
    Except SpecError (List Operation) := do
  let some members := item.members? | throw (.pathItem path)
  let common ← commonParameters path members
  members.foldlM (fun done (member, v) => do
    addOperation done (← readOperation path common member v)) done

/-- Extensions stand beside the path items. -/
def isExtension (path : String) : Bool := Text.startsWith ['x', '-'] path.toList

def addPaths (done : List Operation) (paths : Table Json) : Except SpecError (List Operation) :=
  paths.foldlM (fun done (path, item) =>
    if isExtension path then return done else addPathItem done path item) done

namespace ApiDocument

/-- A document whose references are replaced. -/
def ofExpanded (root : Json) : Except SpecError ApiDocument := do
  let info ← match root.get? "info" with
    | some v =>
      match InfoRecord.shape.read {} v with
      | .ok r => pure r
      | .error e => throw (.info e)
    | none => pure {}
  let some paths := (root.get? "paths").bind Json.members? | throw .noPaths
  return { title := info.title, version := info.version, operations := ← addPaths [] paths }

def ofJson (v : Json) : Except SpecError ApiDocument :=
  match v.dereference with
  | .error e => throw (.reference e)
  | .ok root => ofExpanded root

def ofText (text : String) : Except SpecError ApiDocument :=
  match Json.read text.toList with
  | .error e => throw (.text e)
  | .ok v => ofJson v

end ApiDocument

end RestRoutes
