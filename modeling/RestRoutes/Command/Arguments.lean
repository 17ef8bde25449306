import RestRoutes.Router.Kind

namespace RestRoutes

structure GenerateOptions where
  spec : String
  sources : List String
  routesOut : String
  dispatchOut : String
  docsOut : Option String := none
  router : Option RouterKind := none
  excluded : List String := []
  title : Option String := none
  config : Option String := none
  /-- Compares what is there and writes nothing. -/
  check : Bool := false
  deriving DecidableEq, Repr

structure RoutesOptions where
  spec : String
  excluded : List String := []
  config : Option String := none
  deriving DecidableEq, Repr

inductive Command where
  | generate (o : GenerateOptions)
  | routes (o : RoutesOptions)
  deriving DecidableEq, Repr

/-- Options that may come from outside the command line, which goes first. -/
structure Environment where
  config : Option String := none
  router : Option String := none
  deriving DecidableEq, Repr

namespace Arguments

/-- The values that an option takes each time it is given. -/
inductive Arity where
  | flag
  | one
  | many
  deriving DecidableEq, Repr

/-- An option as it was given. -/
structure Given where
  name : String
  values : List String
  deriving DecidableEq, Repr

/-- A value does not look like an option; a hyphen alone does not. -/
def isValue (a : String) : Bool := a = "-" || a.toList.head? ≠ some '-'

/-- An argument that names an option, and the value attached to the name. -/
def longOption? (a : String) : Option (String × Option String) :=
  match a.toList with
  | '-' :: '-' :: s =>
    let name := String.ofList (s.takeWhile (· ≠ '='))
    match s.dropWhile (· ≠ '=') with
    | [] => some (name, none)
    | _ :: value => some (name, some (String.ofList value))
  | _ => none

/-- The only option with a short name. -/
def verbose : String := "verbose"

/-- The options that the arguments give, as `none` if one of them is unknown or lacks its value. Two
hyphens alone end the options, and nothing can follow those. -/
def given (arity? : String → Option Arity) : List String → Option (List Given)
  | [] => some []
  | a :: rest =>
    if a = "--" then if rest.isEmpty then some [] else none
    else if a = "-v" then (given arity? rest).map (⟨verbose, []⟩ :: ·)
    else
      match longOption? a with
      | none => none
      | some (name, attached) =>
        match arity? name, attached with
        | none, _ | some .flag, some _ => none
        | some .flag, none => (given arity? rest).map (⟨name, []⟩ :: ·)
        | some _, some value => (given arity? rest).map (⟨name, [value]⟩ :: ·)
        | some .one, none =>
          match rest with
          | value :: rest =>
            if isValue value then (given arity? rest).map (⟨name, [value]⟩ :: ·) else none
          | [] => none
        | some .many, none =>
          let values := rest.takeWhile isValue
          if values.isEmpty then none
          else (given arity? (rest.drop values.length)).map (⟨name, values⟩ :: ·)
termination_by args => args.length
decreasing_by all_goals (simp; try omega)

/-- How often an option is given. -/
def count (name : String) (gs : List Given) : Nat := (gs.filter (·.name = name)).length

/-- All values of an option. -/
def values (name : String) (gs : List Given) : List String :=
  (gs.filter (·.name = name)).flatMap (·.values)

/-- An option that may be given once. -/
def single (name : String) (gs : List Given) : Option (Option String) :=
  match values name gs with
  | [] => some none
  | [v] => some (some v)
  | _ => none

def required (name : String) (gs : List Given) : Option String := do (← single name gs)

def flag (name : String) (gs : List Given) : Option Bool :=
  match count name gs with
  | 0 => some false
  | 1 => some true
  | _ => none

/-- Paths are not empty. -/
def path (s : String) : Option String := if s.isEmpty then none else some s

def generateArity : String → Option Arity
  | "spec" => some .one
  | "sources" => some .many
  | "routes-out" => some .one
  | "dispatch-out" => some .one
  | "docs-out" => some .one
  | "router" => some .one
  | "non-dispatchable" => some .one
  | "title" => some .one
  | "config" => some .one
  | "check" => some .flag
  | "verbose" => some .flag
  | _ => none

def routesArity : String → Option Arity
  | "spec" => some .one
  | "non-dispatchable" => some .one
  | "config" => some .one
  | "verbose" => some .flag
  | _ => none

def routerKind (s : String) : Option RouterKind :=
  match RouterKind.ofName s with
  | .ok k => some k
  | .error _ => none

def generate (env : Environment) (args : List String) : Option GenerateOptions := do
  let gs ← given generateArity args
  let _ ← flag verbose gs
  let sources ← (values "sources" gs).mapM path
  if sources.isEmpty then none
  return {
    spec := ← path (← required "spec" gs)
    sources
    routesOut := ← path (← required "routes-out" gs)
    dispatchOut := ← path (← required "dispatch-out" gs)
    docsOut := ← (← single "docs-out" gs).mapM path
    router := ← ((← single "router" gs).or env.router).mapM routerKind
    excluded := values "non-dispatchable" gs
    title := ← single "title" gs
    config := ← ((← single "config" gs).or env.config).mapM path
    check := ← flag "check" gs }

def routes (env : Environment) (args : List String) : Option RoutesOptions := do
  let gs ← given routesArity args
  let _ ← flag verbose gs
  return {
    spec := ← path (← required "spec" gs)
    excluded := values "non-dispatchable" gs
    config := ← ((← single "config" gs).or env.config).mapM path }

def isVerbose (a : String) : Bool := a = "-v" || a = "--verbose"

/-- The command that the arguments ask for, `none` if they are not in order. -/
def command (env : Environment) (args : List String) : Option Command :=
  let rest := match args with
    | a :: rest => if isVerbose a then rest else args
    | [] => []
  match rest with
  | "generate" :: rest => (generate env rest).map .generate
  | "routes" :: rest => (routes env rest).map .routes
  | _ => none

end Arguments

end RestRoutes
