import RestRoutes.Spec.Method
import RestRoutes.Table

namespace RestRoutes

inductive ParameterLocation where
  | path
  | query
  | header
  | cookie
  deriving DecidableEq, Repr, Inhabited

namespace ParameterLocation

def name : ParameterLocation → String
  | .path => "path"
  | .query => "query"
  | .header => "header"
  | .cookie => "cookie"

def ofName? (s : String) : Option ParameterLocation :=
  [ParameterLocation.path, .query, .header, .cookie].find? (·.name = s)

theorem ofName?_name (l : ParameterLocation) : ofName? l.name = some l := by cases l <;> decide

end ParameterLocation

/-- A declared type, with its format when one is given. -/
structure TypeName where
  type : String
  format : Option String := none
  deriving DecidableEq, Repr, Inhabited

structure Parameter where
  name : String
  location : ParameterLocation
  type : TypeName
  deriving DecidableEq, Repr, Inhabited

structure Operation where
  path : String
  method : Method
  id : String
  parameters : List Parameter := []
  /-- The properties of the JSON request body, when one is declared. -/
  body : Option (Table TypeName) := none
  summary : Option String := none
  deriving DecidableEq, Repr, Inhabited

structure ApiDocument where
  title : Option String := none
  version : Option String := none
  /-- In document order. -/
  operations : List Operation := []
  deriving DecidableEq, Repr, Inhabited

end RestRoutes
