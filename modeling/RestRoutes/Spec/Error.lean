import RestRoutes.Json.Reference
import RestRoutes.Json.Fault
import RestRoutes.Spec.Method
import RestRoutes.Spec.Record

namespace RestRoutes

inductive SpecError where
  | text (e : Json.ReadError)
  | reference (e : Json.ReferenceError)
  | info (e : Mismatch)
  | noPaths
  | pathItem (path : String)
  | pathParameters (path : String) (e : Mismatch)
  | operation (method : Method) (path : String) (e : Mismatch)
  | noOperationId (method : Method) (path : String)
  | noParameterName (owner path : String)
  | unknownLocation (name owner found : String)
  | noParameterType (name owner : String)
  | noPropertyType (name owner : String)
  | duplicateOperationId (id : String)

def SpecError.message : SpecError → String
  | .text e =>
    "Failed to parse OpenAPI JSON at line " ++ toString e.line ++ ", column " ++ toString e.column ++
      ": " ++ e.message
  | .reference e => e.message
  | .info e => "Invalid 'info' object: " ++ e.message
  | .noPaths => "OpenAPI document has no 'paths' object"
  | .pathItem path => "Path item '" ++ path ++ "' must be an object"
  | .pathParameters path e => "Invalid parameters on path '" ++ path ++ "': " ++ e.message
  | .operation method path e =>
    "Invalid operation " ++ method.name ++ " " ++ path ++ ": " ++ e.message
  | .noOperationId method path =>
    "Operation " ++ method.name ++ " " ++ path ++ " is missing an operationId"
  | .noParameterName owner path => "Parameter without a name in '" ++ owner ++ "' (" ++ path ++ ")"
  | .unknownLocation name owner found =>
    "Parameter '" ++ name ++ "' in '" ++ owner ++ "' has unknown location '" ++ found ++ "'"
  | .noParameterType name owner =>
    "Parameter '" ++ name ++ "' in '" ++ owner ++ "' lacks a schema.type"
  | .noPropertyType name owner =>
    "Request body property '" ++ name ++ "' in '" ++ owner ++ "' lacks a type"
  | .duplicateOperationId id => "Duplicate operationId '" ++ id ++ "' detected"

end RestRoutes
