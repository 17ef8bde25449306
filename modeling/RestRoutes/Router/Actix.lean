import RestRoutes.Router.Basic
import RestRoutes.Text.Snake

namespace RestRoutes.Actix

structure Options where
  /-- The function that every handler calls. -/
  dispatcher : String := "crate::dispatch::handle"
  /-- The module with one function for each operation. -/
  controllerModule : String := "crate::controller"
  deriving DecidableEq, Repr, Inhabited

/-- The router has no short form for one of the methods. -/
def methodRoute : Method → String
  | .get => "get()"
  | .put => "put()"
  | .post => "post()"
  | .delete => "delete()"
  | .options => "method(actix_web::http::Method::OPTIONS)"
  | .head => "head()"
  | .patch => "patch()"
  | .trace => "trace()"

/-- The type of a path value. -/
def slotType (slot : String) : String :=
  if slot = "int" || slot = "int64" then "i64"
  else if slot = "int32" then "i32"
  else if slot = "uint" then "u64"
  else if slot = "double" || slot = "float" then "f64"
  else if slot = "boolean" || slot = "bool" then "bool"
  else "String"

/-- All path values come in one tuple; the comma after the last makes it one even of one value. -/
def pathExtractor (r : Route) : String :=
  "web::Path<(" ++ ", ".intercalate (r.parameters.map fun p => slotType p.slot) ++ ",)>"

/-- The path values, if there are any, and the body, if the method carries one. -/
def handlerParameters (r : Route) : List String :=
  (if r.parameters.isEmpty then [] else ["path: " ++ pathExtractor r]) ++
    if r.method.carriesBody then ["body: web::Json<serde_json::Value>"] else []

def requestJson (m : Method) : String :=
  if m.carriesBody then "body.into_inner()" else "serde_json::json!(\x7b\x7d)"

/-- Takes the path values apart under their names. -/
def destructuring (r : Route) : String :=
  if r.parameters.isEmpty then ""
  else
    "            let (" ++ ", ".intercalate (r.parameters.map (·.name)) ++
      ",) = path.into_inner();\n"

/-- Puts a path value into the request under its own name. -/
def assignment (p : RouteParameter) : String :=
  "            req_json[\"" ++ p.name ++ "\"] = serde_json::json!(" ++ p.name ++ ");\n"

def registration (o : Options) (r : Route) : String :=
  "    cfg.route(\n" ++
  "        \"" ++ r.path ++ "\",\n" ++
  "        web::" ++ methodRoute r.method ++ ".to(|" ++ ", ".intercalate (handlerParameters r) ++
    "| async move \x7b\n" ++
  "            " ++ (if r.parameters.isEmpty then "let" else "let mut") ++ " req_json = " ++
    requestJson r.method ++ ";\n" ++
  destructuring r ++
  String.join (r.parameters.map assignment) ++
  "            " ++ o.dispatcher ++ "(req_json, \"" ++ r.key ++ "\")\n" ++
  "        \x7d),\n" ++
  "    );\n"

def entry (o : Options) (r : Route) : String :=
  "    handlers.insert(\"" ++ r.key ++ "\", " ++ o.controllerModule ++ "::" ++
    Text.snakeCase r.operation ++ ");\n"

def bindingsOpening : String :=
  Router.notice ++
  "use actix_web::web;\n\n" ++
  "/// Registers every generated route.\n" ++
  "pub fn config(cfg: &mut web::ServiceConfig) \x7b\n"

def dispatchOpening : String :=
  Router.notice ++
  "use serde_json::Value;\n" ++
  "use std::collections::HashMap;\n\n" ++
  "/// Handler invoked with the request JSON.\n" ++
  "pub type RequestHandler = fn(Value) -> Value;\n\n" ++
  "/// Dispatch key -> handler.\n" ++
  "pub fn request_handlers() -> HashMap<&'static str, RequestHandler> \x7b\n" ++
  "    let mut handlers: HashMap<&'static str, RequestHandler> = HashMap::new();\n"

def router (o : Options) : Router where
  bindingsOpening := bindingsOpening
  registration := registration o
  bindingsClosing := "\x7d\n"
  dispatchOpening := dispatchOpening
  entry := entry o
  dispatchClosing := "    handlers\n\x7d\n"

end RestRoutes.Actix
