import RestRoutes.Block.Markers
import RestRoutes.Config.Section
import RestRoutes.Files.System
import RestRoutes.Router.Kind
import RestRoutes.Text.Blank

namespace RestRoutes

/-- How handler sources are found and scanned. -/
structure ScanOptions where
  markers : Markers := {}
  /-- Which files of a directory are scanned. -/
  extensions : List String := ["cpp", "cc", "cxx", "h", "hpp", "rs"]
  deriving DecidableEq, Repr, Inhabited

structure Config where
  router : Option RouterKind := none
  /-- Operations that the dispatch map leaves out. -/
  excluded : List String := []
  title : Option String := none
  scan : ScanOptions := {}
  crow : Crow.Options := {}
  actix : Actix.Options := {}
  deriving DecidableEq, Repr, Inhabited

namespace Config

def annotationSection : Section ScanOptions where
  title := "AnnotationConfig"
  settings := [
    .of "begin_marker" readText fun o s => { o with markers := { o.markers with opening := s } },
    .of "end_marker" readText fun o s => { o with markers := { o.markers with closing := s } },
    .of "comment_leaders" (readList readText) fun o l =>
      { o with markers := { o.markers with leaders := l } },
    .of "extensions" (readList readText) fun o l => { o with extensions := l }]

def crowSection : Section Crow.Options where
  title := "CrowOptions"
  settings := [
    .of "app" readText fun o s => { o with app := s },
    .of "dispatcher" readText fun o s => { o with dispatcher := s },
    .of "handler_table" readText fun o s => { o with handlerTable := s },
    .of "controller" readText fun o s => { o with controller := s }]

def actixSection : Section Actix.Options where
  title := "ActixOptions"
  settings := [
    .of "dispatcher" readText fun o s => { o with dispatcher := s },
    .of "controller_module" readText fun o s => { o with controllerModule := s }]

def routerChoices : List (String × RouterKind) :=
  [RouterKind.crow, RouterKind.actix].map fun k => (k.name, k)

def fileSection : Section Config where
  title := "GeneratorConfig"
  settings := [
    .of "router" (readOptional (readChoice routerChoices)) fun c k => { c with router := k },
    .of "non_dispatchable" (readList readText) fun c ids => { c with excluded := ids },
    .of "title" (readOptional readText) fun c t => { c with title := t },
    .of "annotations" (annotationSection.read {}) fun c o => { c with scan := o },
    .of "crow" (crowSection.read {}) fun c o => { c with crow := o },
    .of "actix" (actixSection.read {}) fun c o => { c with actix := o }]

/-- Both markers hold something, and not the same. -/
def validate (c : Config) : Read Config :=
  let isBlank (s : String) : Bool := (Text.trim s.toList).isEmpty
  let m := c.scan.markers
  if isBlank m.opening then .error (.emptyMarker "annotations.begin_marker")
  else if isBlank m.closing then .error (.emptyMarker "annotations.end_marker")
  else if m.opening = m.closing then .error .sameMarkers
  else .ok c

/-- What does not fit is reported before what is malformed further on. -/
def ofText (text : String) : Read Config := do
  let document := Yaml.Document.ofText text
  let c ← match document.root with
    | none => pure {}
    | some root => fileSection.read {} ⟨root, ⟨root.mark, ""⟩, ""⟩ root
  if document.complete then c.validate else .error .malformed

def load {m : Type → Type} [Monad m] [FileSystem m] (path : String) : m (Except ConfigError Config) := do
  match ← FileSystem.readText path with
  | .error e => return .error (.unreadable path e)
  | .ok text =>
    match ofText text with
    | .error problem => return .error (.invalid path problem)
    | .ok c => return .ok c

end Config

end RestRoutes
