import RestRoutes.Router.Basic

namespace RestRoutes.Crow

structure Options where
  /-- The variable that routes are attached to. -/
  app : String := "app"
  /-- The member function that every handler calls. -/
  dispatcher : String := "genericRequestHandler"
  /-- The member that maps dispatch keys to handlers. -/
  handlerTable : String := "request_handlers"
  /-- The member whose methods implement the operations. -/
  controller : String := "controller"
  deriving DecidableEq, Repr, Inhabited

def methodName : Method → String
  | .get => "Get"
  | .put => "Put"
  | .post => "Post"
  | .delete => "Delete"
  | .options => "Options"
  | .head => "Head"
  | .patch => "Patch"
  | .trace => "Trace"

/-- The kinds of path values that the router reads. All other slots are received as text. -/
inductive ValueKind where
  | int
  | uint
  | double
  | string
  deriving DecidableEq, Repr

def ValueKind.ofSlot (slot : String) : ValueKind :=
  if slot = "int" then .int
  else if slot = "uint" then .uint
  else if slot = "double" || slot = "float" then .double
  else .string

/-- How a pattern names the kind. -/
def ValueKind.pattern : ValueKind → String
  | .int => "int"
  | .uint => "uint"
  | .double => "double"
  | .string => "string"

/-- How a parameter of the handler declares the kind. -/
def ValueKind.type : ValueKind → String
  | .int => "int"
  | .uint => "unsigned int"
  | .double => "double"
  | .string => "const std::string&"

def pattern (r : Route) : String :=
  Template.substitute r.path (r.parameters.map fun p => (ValueKind.ofSlot p.slot).pattern)

/-- The request and then one parameter for each path value. -/
def handlerParameters (r : Route) : List String :=
  "const crow::request& req" ::
    r.parameters.map fun p => (ValueKind.ofSlot p.slot).type ++ " " ++ p.name

def requestJson (m : Method) : String :=
  if m.carriesBody then "json::parse(req.body)" else "json::object()"

/-- Puts a path value into the request under its own name. -/
def assignment (p : RouteParameter) : String :=
  "\t\t\treq_json[\"" ++ p.name ++ "\"] = " ++ p.name ++ ";\n"

def registration (o : Options) (r : Route) : String :=
  "\tCROW_ROUTE(" ++ o.app ++ ", \"" ++ pattern r ++ "\").methods(crow::HTTPMethod::" ++
    methodName r.method ++ ")\n" ++
  "\t\t([this](" ++ ", ".intercalate (handlerParameters r) ++ ")\x7b\n" ++
  "\t\t\tjson req_json = " ++ requestJson r.method ++ ";\n" ++
  String.join (r.parameters.map assignment) ++
  "\t\t\tcrow::response res;\n" ++
  "\t\t\tthis->" ++ o.dispatcher ++ "(req_json, res, \"" ++ r.key ++ "\");\n" ++
  "\t\t\treturn res;\n" ++
  "\t\t\x7d);\n\n"

def entry (o : Options) (r : Route) : String :=
  "\t" ++ o.handlerTable ++ "[\"" ++ r.key ++ "\"] = [this](json data) \x7b return this->" ++
    o.controller ++ "->" ++ r.operation ++ "(std::move(data)); \x7d;\n"

def router (o : Options) : Router where
  bindingsOpening := Router.notice
  registration := registration o
  bindingsClosing := ""
  dispatchOpening := Router.notice
  entry := entry o
  dispatchClosing := ""

end RestRoutes.Crow
