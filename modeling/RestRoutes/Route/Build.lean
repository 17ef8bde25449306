import RestRoutes.Route.Key
import RestRoutes.Route.Slot
import RestRoutes.Route.Template

namespace RestRoutes

structure RouteParameter where
  name : String
  slot : String
  deriving DecidableEq, Repr, Inhabited

structure Route where
  path : String
  method : Method
  /-- The path with typed slots in place of its placeholders. -/
  pattern : String
  /-- In the order of the placeholders. -/
  parameters : List RouteParameter
  /-- The fields of the body, for a method that carries one. -/
  body : Option (Table String) := none
  key : String
  operation : String
  /-- Whether the route gets an entry in the dispatch map. -/
  dispatchable : Bool := true
  summary : Option String := none
  deriving DecidableEq, Repr, Inhabited

/-- The operations that get no entry in the dispatch map. -/
structure Policy where
  excluded : List String := []
  deriving DecidableEq, Repr, Inhabited

def Policy.dispatches (p : Policy) (operation : String) : Bool := operation ∉ p.excluded

/-- The excluded operations that are no operations, the least of them. -/
def Policy.unknown? (p : Policy) (operations : List Operation) : Option String :=
  (p.excluded.filter fun id => operations.all (·.id ≠ id)).foldl
    (fun least id => match least with
      | none => some id
      | some other => some (if id < other then id else other)) none

inductive BuildError where
  | unknownOperation (id : String)
  | template (path operation : String) (e : Template.Error)
  | noParameter (name : String) (method : Method) (path operation : String)
  | keyTaken (key : String) (method : Method) (path : String)
  deriving DecidableEq, Repr

def BuildError.message : BuildError → String
  | .unknownOperation id =>
    "Non-dispatchable operation '" ++ id ++ "' does not match any operationId"
  | .template path operation e =>
    "Invalid path template '" ++ path ++ "' (" ++ operation ++ "): " ++ e.message
  | .noParameter name method path operation =>
    "Placeholder '\x7b" ++ name ++ "\x7d' in " ++ method.name ++ " " ++ path ++ " (" ++ operation ++
      ") has no parameter definition"
  | .keyTaken key method path =>
    "Dispatch key '" ++ key ++ "' of " ++ method.name ++ " " ++ path ++
      " collides with an earlier route"

/-- The parameter that types a placeholder: one in the path, or else any of that name. -/
def Operation.parameter? (o : Operation) (name : String) : Option Parameter :=
  match o.parameters.find? fun p => p.name = name && p.location = .path with
  | some p => some p
  | none => o.parameters.find? (·.name = name)

namespace Route

/-- The parameters for the placeholders of an operation's path. -/
def parametersOf (o : Operation) (names : List String) : Except BuildError (List RouteParameter) :=
  names.mapM fun name =>
    match o.parameter? name with
    | some p => .ok ⟨name, p.type.slot⟩
    | none => .error (.noParameter name o.method o.path o.id)

/-- The fields of the body, if the method carries one. -/
def bodyOf (o : Operation) : Option (Table String) :=
  if o.method.carriesBody then o.body.map (·.map fun (name, type) => (name, type.field)) else none

/-- The route of the operation with this number. -/
def ofOperation (p : Policy) (number : Nat) (o : Operation) : Except BuildError Route :=
  match Template.placeholders o.path with
  | .error e => .error (.template o.path o.id e)
  | .ok names => do
    let parameters ← parametersOf o names
    return {
      path := o.path
      method := o.method
      pattern := Template.substitute o.path (parameters.map (·.slot))
      parameters
      body := bodyOf o
      key := dispatchKey o.path number
      operation := o.id
      dispatchable := p.dispatches o.id
      summary := o.summary }

/-- The routes of the operations from `number` on, behind the routes `done`. -/
def tableFrom (p : Policy) (number : Nat) (done : List Route) :
    List Operation → Except BuildError (List Route)
  | [] => return done
  | o :: rest => do
    let r ← ofOperation p number o
    if done.any (·.key = r.key) then throw (.keyTaken r.key r.method r.path)
    tableFrom p (number + 1) (done ++ [r]) rest

/-- The route table. Every operation that the policy excludes must be there. -/
def table (p : Policy) (operations : List Operation) : Except BuildError (List Route) :=
  match p.unknown? operations with
  | some id => .error (.unknownOperation id)
  | none => tableFrom p 0 [] operations

end Route

end RestRoutes
