import RestRoutes.Command.Arguments
import RestRoutes.Config.Load
import RestRoutes.Failure
import RestRoutes.Notice
import RestRoutes.Route.Listing

namespace RestRoutes

/-- What a command prints or fails with, and what it tells beside that. -/
structure Outcome where
  result : Except Failure String
  notices : List Notice := []

variable {m : Type → Type} [Monad m] [FileSystem m]

/-- The configuration of a file; without one everything keeps its default. -/
def Config.read : Option String → m (Except Failure Config)
  | none => return .ok {}
  | some path => do
    match ← Config.load path with
    | .ok c => return .ok c
    | .error e => return .error (.config e)

def ApiDocument.read (path : String) : m (Except Failure ApiDocument) := do
  match ← FileSystem.readText path with
  | .error e => return .error (.specFile path e)
  | .ok text =>
    match ApiDocument.ofText text with
    | .ok d => return .ok d
    | .error e => return .error (.spec e)

/-- The blocks of the sources, a directory standing for the files in it. -/
def Source.read (scan : ScanOptions) (sources : List String) : m (Except Failure (List Block)) := do
  match ← Source.collect scan.extensions sources with
  | .error e => return .error (.source e)
  | .ok files =>
    match ← Source.blocks scan.markers files with
    | .ok blocks => return .ok blocks
    | .error e => return .error (.source e)

/-- What is read before anything is generated. -/
structure Inputs where
  config : Config
  document : ApiDocument
  blocks : List Block

def Inputs.read (o : GenerateOptions) : m (Except Failure Inputs) := do
  match ← Config.read o.config with
  | .error e => return .error e
  | .ok config =>
    match ← ApiDocument.read o.spec with
    | .error e => return .error e
    | .ok document =>
      match ← Source.read config.scan o.sources with
      | .error e => return .error e
      | .ok blocks => return .ok ⟨config, document, blocks⟩

/-- What a command generates: the files, and the number of routes in them. -/
structure Build where
  router : RouterKind
  routeCount : Nat
  artifacts : List Artifact
  unmatched : List Block

namespace Build

/-- The command line has the last word on router and title, and adds to the operations left out. -/
def ofInputs (o : GenerateOptions) (i : Inputs) : Except Failure Build :=
  let kind := (o.router.or i.config.router).getD .crow
  let options : CompileOptions :=
    { policy := ⟨i.config.excluded ++ o.excluded⟩, title := o.title.or i.config.title }
  match compile (kind.router i.config.crow i.config.actix) i.document i.blocks options with
  | .error e => .error (.build e)
  | .ok g => .ok {
      router := kind
      routeCount := g.routes.length
      artifacts := [⟨o.routesOut, g.bindings⟩, ⟨o.dispatchOut, g.dispatchMap⟩] ++
        (o.docsOut.map fun path => Artifact.mk path g.reference).toList
      unmatched := g.unmatched }

/-- Compares the files with what is there. -/
def check (b : Build) : m Outcome := do
  match ← Artifact.stale b.artifacts with
  | .error e => return ⟨.error (.comparing e), []⟩
  | .ok [] => return ⟨.ok (toString b.artifacts.length ++ " artifact(s) up to date\n"), []⟩
  | .ok paths => return ⟨.error (.outdated paths), []⟩

def summary (b : Build) (spec : String) : String :=
  "Generated " ++ toString b.routeCount ++ " routes (" ++ b.router.name ++ " router) from " ++
    Text.quoted spec ++ "\n"

/-- Puts the files in their places. -/
def write (b : Build) (spec : String) : m Outcome := do
  let report ← Artifact.writeAll b.artifacts
  let result := match report.result with
    | .ok () => .ok (b.summary spec)
    | .error e => .error (.writing e)
  return ⟨result, report.rollbacks.map .rollback⟩

end Build

def GenerateOptions.run (o : GenerateOptions) : m Outcome := do
  match ← Inputs.read o with
  | .error e => return ⟨.error e, []⟩
  | .ok inputs =>
    match Build.ofInputs o inputs with
    | .error e => return ⟨.error e, []⟩
    | .ok b =>
      let outcome ← if o.check then b.check else b.write o.spec
      return { outcome with notices := b.unmatched.map .unmatched ++ outcome.notices }

/-- Prints the route table of a description. -/
def RoutesOptions.run (o : RoutesOptions) : m Outcome := do
  match ← Config.read o.config with
  | .error e => return ⟨.error e, []⟩
  | .ok config =>
    match ← ApiDocument.read o.spec with
    | .error e => return ⟨.error e, []⟩
    | .ok document =>
      match Route.table ⟨config.excluded ++ o.excluded⟩ document.operations with
      | .error e => return ⟨.error (.build e), []⟩
      | .ok routes => return ⟨.ok (Listing.render routes), []⟩

def Command.run : Command → m Outcome
  | .generate o => o.run
  | .routes o => o.run

/-- What the arguments ask for, done; nothing is when they are not in order. -/
def program (env : Environment) (args : List String) : m (Option Outcome) := do
  match Arguments.command env args with
  | none => return none
  | some command => return some (← command.run)

/-- The exit code for arguments that are not in order, for a failure and for neither. -/
def exitCode : Option Outcome → UInt32
  | none => 2
  | some ⟨.error _, _⟩ => 1
  | some ⟨.ok _, _⟩ => 0

end RestRoutes
