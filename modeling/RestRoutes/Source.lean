import RestRoutes.Block.Scan
import RestRoutes.Files.Path
import RestRoutes.Files.System

namespace RestRoutes

inductive SourceError where
  | missing (path : String)
  | unlistable (path : String) (e : FileError)
  | unreadable (path : String) (e : FileError)
  | block (e : BlockError)

namespace Source

variable {m : Type → Type} [Monad m] [FileSystem m]

/-- Whether a file found in a directory is to be scanned. -/
def hasExtension (extensions : List String) (names : List String) : Bool :=
  match names.getLast?.bind Path.extension? with
  | some e => e ∈ extensions
  | none => false

/-- The files below a directory that are to be scanned, in the order of a sorted walk. -/
def select (source : String) (extensions : List String) (below : List (List String)) : List String :=
  ((below.filter (hasExtension extensions)).mergeSort Path.before).map (Path.join source)

/-- What one source stands for: itself, or files below it. -/
def expand (extensions : List String) (source : String) : m (Except SourceError (List String)) := do
  match ← FileSystem.kind source with
  | some .file => return .ok [source]
  | none => return .error (.missing source)
  | some .directory =>
    match ← FileSystem.filesBelow source with
    | .ok below => return .ok (select source extensions below)
    | .error e => return .error (.unlistable source e)

def expandAll (extensions : List String) : List String → m (Except SourceError (List String))
  | [] => return .ok []
  | s :: rest => do
    match ← expand extensions s with
    | .error e => return .error e
    | .ok files =>
      match ← expandAll extensions rest with
      | .error e => return .error e
      | .ok more => return .ok (files ++ more)

/-- Of several paths with the same parts the first is kept. -/
def distinct (seen : List Path.Parts) : List String → List String
  | [] => []
  | path :: rest =>
    let parts := Path.parts path
    if parts ∈ seen then distinct seen rest else path :: distinct (parts :: seen) rest

/-- The files that sources stand for, each once. -/
def collect (extensions sources : List String) : m (Except SourceError (List String)) := do
  match ← expandAll extensions sources with
  | .error e => return .error e
  | .ok files => return .ok (distinct [] files)

def scanAll (markers : Markers) : List String → m (Except SourceError (List Block))
  | [] => return .ok []
  | file :: rest => do
    match ← FileSystem.readText file with
    | .error e => return .error (.unreadable file e)
    | .ok text =>
      match (Scanner.mk file markers).scan text with
      | .error e => return .error (.block e)
      | .ok blocks =>
        match ← scanAll markers rest with
        | .error e => return .error e
        | .ok more => return .ok (blocks ++ more)

/-- The blocks of all files; no two of them document one operation. -/
def blocks (markers : Markers) (files : List String) : m (Except SourceError (List Block)) := do
  match ← scanAll markers files with
  | .error e => return .error e
  | .ok found =>
    match requireDistinct [] found with
    | .error e => return .error (.block e)
    | .ok () => return .ok found

end Source

end RestRoutes
