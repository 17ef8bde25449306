import RestRoutes.Spec.Operation

namespace RestRoutes

/-- The slot that a declared type fills: a number is read as its format says. -/
def TypeName.slot (t : TypeName) : String :=
  if t.type = "integer" then "int"
  else if t.type = "number" then t.format.getD "double"
  else t.type

/-- The type of a body field is the declared one, but a number's format says more. -/
def TypeName.field (t : TypeName) : String :=
  if t.type = "number" then t.format.getD t.type else t.type

end RestRoutes
