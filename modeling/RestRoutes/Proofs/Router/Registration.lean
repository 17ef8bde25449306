import RestRoutes.Router.Crow
import RestRoutes.Router.Actix
import RestRoutes.Proofs.Route.Pattern

namespace RestRoutes

/-- An entry of a dispatch map: a key, and the function that it leads to. -/
structure Handler where
  key : String
  function : String
  deriving DecidableEq

namespace Crow

def functionOf (o : Options) (id : String) : String := o.controller ++ "->" ++ id

def Handler.insertion (o : Options) (h : Handler) : String :=
  "\t" ++ o.handlerTable ++ "[\"" ++ h.key ++ "\"] = [this](json data) \x7b return this->" ++
    h.function ++ "(std::move(data)); \x7d;\n"

theorem insertion_eq (o : Options) (r : Route) :
    Handler.insertion o ⟨r.key, functionOf o r.operation⟩ = entry o r := by
  unfold Handler.insertion functionOf entry
  simp only [String.append_assoc, -String.reduceAppend]

/-- A parameter of a handler. -/
structure Argument where
  type : String
  name : String

inductive Statement where
  /-- Declares the request's JSON: its body, or an empty object. -/
  | declare (parsed : Bool)
  /-- Puts the value of a variable into the request. -/
  | assign (member source : String)
  /-- Declares the response. -/
  | respond
  | dispatch (dispatcher key : String)
  | answer

def Statement.text : Statement → String
  | .declare parsed =>
    "\t\t\tjson req_json = " ++ (if parsed then "json::parse(req.body)" else "json::object()") ++ ";\n"
  | .assign member source => "\t\t\treq_json[\"" ++ member ++ "\"] = " ++ source ++ ";\n"
  | .respond => "\t\t\tcrow::response res;\n"
  | .dispatch dispatcher key => "\t\t\tthis->" ++ dispatcher ++ "(req_json, res, \"" ++ key ++ "\");\n"
  | .answer => "\t\t\treturn res;\n"

structure Registration where
  app : String
  pattern : String
  method : Method
  arguments : List Argument
  body : List Statement

def Registration.text (s : Registration) : String :=
  "\tCROW_ROUTE(" ++ s.app ++ ", \"" ++ s.pattern ++ "\").methods(crow::HTTPMethod::" ++
    methodName s.method ++ ")\n" ++
  "\t\t([this](" ++ ", ".intercalate (s.arguments.map fun a => a.type ++ " " ++ a.name) ++ ")\x7b\n" ++
  String.join (s.body.map Statement.text) ++
  "\t\t\x7d);\n\n"

def registered (o : Options) (r : Route) : Registration where
  app := o.app
  pattern := pattern r
  method := r.method
  arguments := ⟨"const crow::request&", "req"⟩ ::
    r.parameters.map fun p => ⟨(ValueKind.ofSlot p.slot).type, p.name⟩
  body := .declare r.method.carriesBody :: r.parameters.map (fun p => .assign p.name p.name) ++
    [.respond, .dispatch o.dispatcher r.key, .answer]

theorem text_arguments (o : Options) (r : Route) :
    (registered o r).arguments.map (fun a => a.type ++ " " ++ a.name) = handlerParameters r := by
  rw [registered, List.map_cons, List.map_map]
  rfl

theorem text_body (o : Options) (r : Route) : String.join ((registered o r).body.map Statement.text) =
    "\t\t\tjson req_json = " ++ requestJson r.method ++ ";\n" ++
    String.join (r.parameters.map assignment) ++
    "\t\t\tcrow::response res;\n" ++
    "\t\t\tthis->" ++ o.dispatcher ++ "(req_json, res, \"" ++ r.key ++ "\");\n" ++
    "\t\t\treturn res;\n" := by
  have hassign : Statement.text ∘ (fun p : RouteParameter => .assign p.name p.name) = assignment := rfl
  simp only [registered, List.map_cons, List.map_append, List.map_map, List.map_nil, hassign,
    String.join_cons, String.join_append, String.join_nil, String.append_empty]
  unfold Statement.text requestJson
  simp only [String.append_assoc, -String.reduceAppend]

theorem text_registered (o : Options) (r : Route) : (registered o r).text = registration o r := by
  unfold Registration.text registration
  rw [text_arguments, text_body]
  simp only [String.append_assoc, -String.reduceAppend]
  rfl

/-- The functions that the handler calls with the request, each with the key that it hands over. -/
def Registration.handed (s : Registration) : List (String × String) :=
  s.body.filterMap fun
    | .dispatch dispatcher key => some (dispatcher, key)
    | _ => none

theorem handed_registered (o : Options) (r : Route) : (registered o r).handed = [(o.dispatcher, r.key)] := by
  have hassign : r.parameters.filterMap (fun _ => (none : Option (String × String))) = [] :=
    List.filterMap_eq_nil_iff.mpr fun _ _ => rfl
  simp [Registration.handed, registered, List.filterMap_map, hassign]

/-- The types of the parameters that receive the kinds of a pattern. -/
inductive Receives : String → String → Prop where
  | int : Receives "int" "int"
  | uint : Receives "uint" "unsigned int"
  | double : Receives "double" "double"
  | string : Receives "string" "const std::string&"

theorem ValueKind.receives (k : ValueKind) : Receives k.pattern k.type := by
  cases k with
  | int => exact .int
  | uint => exact .uint
  | double => exact .double
  | string => exact .string

/-- How the pattern names the kinds of the path values. -/
def kindsOf (r : Route) : List String := r.parameters.map fun p => (ValueKind.ofSlot p.slot).pattern

/-- What the registration of a route delivers whose path is divided so. -/
structure Registration.Delivers (s : Registration) (o : Options) (r : Route) (first : List Char)
    (parts : List (String × List Char)) : Prop where
  app : s.app = o.app
  method : s.method = r.method
  pattern : s.pattern.toList = Template.weave '<' '>' first ((kindsOf r).zip (parts.map Prod.snd))
  /-- The request, and a parameter for each name that receives its kind of value. -/
  arguments : ∃ types, List.Forall₂ Receives (kindsOf r) types ∧
    s.arguments = ⟨"const crow::request&", "req"⟩ :: List.zipWith Argument.mk types (parts.map Prod.fst)
  body : s.body = .declare (r.method = .post ∨ r.method = .put) ::
    parts.map (fun x => .assign x.1 x.1) ++ [.respond, .dispatch o.dispatcher r.key, .answer]

end Crow

namespace Actix

def functionOf (o : Options) (id : String) : String := o.controllerModule ++ "::" ++ Text.snakeCase id

def Handler.insertion (h : Handler) : String :=
  "    handlers.insert(\"" ++ h.key ++ "\", " ++ h.function ++ ");\n"

theorem insertion_eq (o : Options) (r : Route) :
    Handler.insertion ⟨r.key, functionOf o r.operation⟩ = entry o r := by
  unfold Handler.insertion functionOf entry
  simp only [String.append_assoc, -String.reduceAppend]

inductive Statement where
  /-- Declares the request's JSON: its body, or an empty object. -/
  | declare (mutable parsed : Bool)
  /-- Declares variables for the path values. -/
  | destructure (names : List String)
  /-- Puts the value of a variable into the request. -/
  | assign (member source : String)
  | dispatch (dispatcher key : String)

def Statement.text : Statement → String
  | .declare mutable parsed =>
    "            " ++ (if mutable then "let mut" else "let") ++ " req_json = " ++
      (if parsed then "body.into_inner()" else "serde_json::json!(\x7b\x7d)") ++ ";\n"
  | .destructure names => "            let (" ++ ", ".intercalate names ++ ",) = path.into_inner();\n"
  | .assign member source =>
    "            req_json[\"" ++ member ++ "\"] = serde_json::json!(" ++ source ++ ");\n"
  | .dispatch dispatcher key => "            " ++ dispatcher ++ "(req_json, \"" ++ key ++ "\")\n"

structure Registration where
  path : String
  method : Method
  /-- The types of the path values, if the handler takes them. -/
  extractor : Option (List String)
  takesBody : Bool
  body : List Statement

def Registration.arguments (s : Registration) : List String :=
  (match s.extractor with
    | some types => ["path: " ++ ("web::Path<(" ++ ", ".intercalate types ++ ",)>")]
    | none => []) ++
  if s.takesBody then ["body: web::Json<serde_json::Value>"] else []

def Registration.text (s : Registration) : String :=
  "    cfg.route(\n" ++
  "        \"" ++ s.path ++ "\",\n" ++
  "        web::" ++ methodRoute s.method ++ ".to(|" ++ ", ".intercalate s.arguments ++
    "| async move \x7b\n" ++
  String.join (s.body.map Statement.text) ++
  "        \x7d),\n" ++
  "    );\n"

def registered (o : Options) (r : Route) : Registration where
  path := r.path
  method := r.method
  extractor := if r.parameters = [] then none else some (r.parameters.map fun p => slotType p.slot)
  takesBody := r.method.carriesBody
  body := .declare (r.parameters ≠ []) r.method.carriesBody ::
    (if r.parameters = [] then [] else [.destructure (r.parameters.map (·.name))]) ++
    r.parameters.map (fun p => .assign p.name p.name) ++ [.dispatch o.dispatcher r.key]

theorem arguments_registered (o : Options) (r : Route) :
    (registered o r).arguments = handlerParameters r := by
  cases hp : r.parameters with
  | nil => simp [Registration.arguments, registered, handlerParameters, hp]
  | cons p ps => simp [Registration.arguments, registered, handlerParameters, pathExtractor, hp]

theorem text_body (o : Options) (r : Route) : String.join ((registered o r).body.map Statement.text) =
    "            " ++ (if r.parameters.isEmpty then "let" else "let mut") ++ " req_json = " ++
      requestJson r.method ++ ";\n" ++
    destructuring r ++
    String.join (r.parameters.map assignment) ++
    "            " ++ o.dispatcher ++ "(req_json, \"" ++ r.key ++ "\")\n" := by
  have hassign : Statement.text ∘ (fun p : RouteParameter => .assign p.name p.name) = assignment := rfl
  have hdestructure : String.join ((if r.parameters = [] then []
      else [.destructure (r.parameters.map (·.name))]).map Statement.text) = destructuring r := by
    cases hp : r.parameters with
    | nil => simp [destructuring, hp]
    | cons p ps =>
      unfold destructuring Statement.text
      simp [hp]
  have hmutable : (if decide (r.parameters ≠ []) = true then "let mut" else "let") =
      if r.parameters.isEmpty then "let" else "let mut" := by
    cases r.parameters with
    | nil => rfl
    | cons p ps => rfl
  simp only [registered, List.map_cons, List.map_append, List.map_map, List.map_nil, hassign,
    String.join_cons, String.join_append, String.join_nil, String.append_empty, hdestructure]
  unfold Statement.text requestJson
  simp only [hmutable, String.append_assoc, -String.reduceAppend]

theorem text_registered (o : Options) (r : Route) : (registered o r).text = registration o r := by
  unfold Registration.text registration
  rw [arguments_registered, text_body]
  simp only [String.append_assoc, -String.reduceAppend]
  rfl

/-- The functions that the handler calls with the request, each with the key that it hands over. -/
def Registration.handed (s : Registration) : List (String × String) :=
  s.body.filterMap fun
    | .dispatch dispatcher key => some (dispatcher, key)
    | _ => none

theorem handed_registered (o : Options) (r : Route) : (registered o r).handed = [(o.dispatcher, r.key)] := by
  have hassign : r.parameters.filterMap (fun _ => (none : Option (String × String))) = [] :=
    List.filterMap_eq_nil_iff.mpr fun _ _ => rfl
  by_cases hp : r.parameters = []
  · simp [Registration.handed, registered, hp]
  · simp [Registration.handed, registered, List.filterMap_map, hassign, hp]

/-- What the registration of a route delivers whose path is divided so. -/
structure Registration.Delivers (s : Registration) (o : Options) (r : Route)
    (parts : List (String × List Char)) : Prop where
  method : s.method = r.method
  path : s.path = r.path
  /-- A type for each name, when there are any. -/
  extractor : s.extractor = if parts = [] then none else some (r.parameters.map fun p => slotType p.slot)
  takesBody : s.takesBody = decide (r.method = .post ∨ r.method = .put)
  body : s.body = .declare (parts ≠ []) (r.method = .post ∨ r.method = .put) ::
    (if parts = [] then [] else [.destructure (parts.map Prod.fst)]) ++
    parts.map (fun x => .assign x.1 x.1) ++ [.dispatch o.dispatcher r.key]

end Actix

theorem Method.carriesBody_eq (m : Method) : m.carriesBody = decide (m = .post ∨ m = .put) := by
  cases m with
  | _ => rfl

variable {r : Route} {first : List Char} {parts : List (String × List Char)}

namespace Route.Renders

theorem length (h : r.Renders first parts) : r.parameters.length = parts.length := by
  simpa using congrArg List.length h.names

theorem map_names (h : r.Renders first parts) (f : String → α) :
    r.parameters.map (fun p => f p.name) = parts.map fun x => f x.1 := by
  simpa [List.map_map, Function.comp_def] using congrArg (List.map f) h.names

theorem parameters_eq_nil_iff (h : r.Renders first parts) : r.parameters = [] ↔ parts = [] := by
  rw [← List.length_eq_zero_iff, h.length, List.length_eq_zero_iff]

end Route.Renders

theorem Crow.registered_delivers (o : Crow.Options) (h : r.Renders first parts) :
    (Crow.registered o r).Delivers o r first parts where
  app := rfl
  method := rfl
  pattern := by
    have hlength : (kindsOf r).length = parts.length := by rw [kindsOf, List.length_map, h.length]
    exact Template.toList_substitute h.path hlength
  arguments := by
    refine ⟨r.parameters.map fun p => (ValueKind.ofSlot p.slot).type, ?_, ?_⟩
    · simp only [Crow.kindsOf, List.forall₂_map_left_iff, List.forall₂_map_right_iff, List.forall₂_same]
      intro p _
      exact ValueKind.receives _
    · rw [← h.names, List.zipWith_map, List.zipWith_self]
      rfl
  body := by
    have hassign := h.map_names fun name => Statement.assign name name
    simp only [registered, hassign, Method.carriesBody_eq]

theorem Actix.registered_delivers (o : Actix.Options) (h : r.Renders first parts) :
    (Actix.registered o r).Delivers o r parts where
  method := rfl
  path := rfl
  extractor := by
    simp only [registered, h.parameters_eq_nil_iff]
  takesBody := Method.carriesBody_eq r.method
  body := by
    have hassign := h.map_names fun name => Statement.assign name name
    simp only [registered, hassign, h.names, Method.carriesBody_eq, ne_eq, h.parameters_eq_nil_iff]

/-- Each emitted handler delivers every path value under its own name. -/
theorem registrations_deliver (crow : Crow.Options) (actix : Actix.Options) {p : Policy}
    {ops : List Operation} {routes : List Route} (h : Route.table p ops = .ok routes) :
    ∀ r ∈ routes, ∃ first parts, r.Renders first parts ∧
      (∃ s : Crow.Registration, Crow.registration crow r = s.text ∧ s.Delivers crow r first parts) ∧
      ∃ s : Actix.Registration, Actix.registration actix r = s.text ∧ s.Delivers actix r parts := by
  intro r hr
  rw [Route.table_eq_mapM (Route.table_eq_ok h).1] at h
  obtain ⟨o, -, ho⟩ := (mapM_eq_ok h).2 r hr
  obtain ⟨first, parts, hr⟩ := Route.ofOperation_renders ho
  exact ⟨first, parts, hr,
    ⟨_, (Crow.text_registered crow r).symm, Crow.registered_delivers crow hr⟩,
    ⟨_, (Actix.text_registered actix r).symm, Actix.registered_delivers actix hr⟩⟩

def bookingOperation : Operation where
  path := "/rows/{row}{seat}/<{price}>"
  method := .put
  id := "book"
  parameters := [⟨"price", .path, ⟨"number", none⟩⟩, ⟨"row", .path, ⟨"integer", none⟩⟩,
    ⟨"seat", .query, ⟨"boolean", none⟩⟩]

theorem registrations_deliver_booking : ∃ routes, Route.table {} [bookingOperation] = .ok routes ∧
    ∀ r ∈ routes, ∃ first parts, r.Renders first parts ∧
      (∃ s : Crow.Registration, Crow.registration {} r = s.text ∧ s.Delivers {} r first parts) ∧
      ∃ s : Actix.Registration, Actix.registration {} r = s.text ∧ s.Delivers {} r parts := by
  obtain ⟨routes, h⟩ : ∃ routes, Route.table {} [bookingOperation] = .ok routes := ⟨_, rfl⟩
  exact ⟨routes, h, registrations_deliver {} {} h⟩

end RestRoutes
