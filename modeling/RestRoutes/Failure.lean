import RestRoutes.Artifact
import RestRoutes.Compile
import RestRoutes.Config.Error
import RestRoutes.Source

namespace RestRoutes

inductive Failure where
  | config (e : ConfigError)
  | router (u : RouterKind.Unknown)
  | specFile (path : String) (e : FileError)
  | spec (e : SpecError)
  | source (e : SourceError)
  | build (e : BuildError)
  /-- A generated file cannot be looked at. -/
  | comparing (e : FileError)
  | outdated (paths : List String)
  | writing (e : WriteError)

inductive FailureKind where
  | io
  | schema
  | blockContents
  | blockPlacement
  | build
  | config
  | general
  deriving DecidableEq, Repr

/-- A block is named by where it stands, so its title leads on to that. -/
def FailureKind.title : FailureKind → String
  | .io => "IO Error: "
  | .schema => "Schema Error: "
  | .blockContents => "Annotation Syntax Error in "
  | .blockPlacement => "Annotation Structure Error in "
  | .build => "Build Error: "
  | .config => "Config Error: "
  | .general => "General Error: "

namespace Failure

def kind : Failure → FailureKind
  | .config _ => .config
  | .router _ => .config
  | .specFile .. => .schema
  | .spec _ => .schema
  | .source (.block (.contents ..)) => .blockContents
  | .source (.block (.placement ..)) => .blockPlacement
  | .source _ => .general
  | .build _ => .build
  | .comparing _ => .io
  | .outdated _ => .general
  | .writing (.staging _) => .io
  | .writing _ => .general

/-- A path and what is wrong with it. -/
def pathDetails (path : String) (e : FileError) : String := Text.quoted path ++ ": " ++ e.message

def details : Failure → String
  | .config e => e.message
  | .router u => u.message
  | .specFile path e => "Failed to read OpenAPI file " ++ pathDetails path e
  | .spec e => e.message
  | .source (.missing path) => "Source path not found: " ++ Text.quoted path
  | .source (.unlistable path e) => "Failed to walk " ++ pathDetails path e
  | .source (.unreadable path e) => "Failed to read source " ++ pathDetails path e
  | .source (.block e) => e.message
  | .build e => e.message
  | .comparing e => e.message
  | .outdated paths => "Generated files are out of date: " ++ ", ".intercalate paths
  | .writing (.snapshot path e) => "Failed to read existing " ++ pathDetails path e
  | .writing (.staging e) => e.message
  | .writing (.replacing path e) => "Failed to write " ++ pathDetails path e

def message (f : Failure) : String := f.kind.title ++ f.details

end Failure

end RestRoutes
