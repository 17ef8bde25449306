import RestRoutes.Files.Path
import RestRoutes.Files.System

namespace RestRoutes

abbrev Location := List String

inductive Entry where
  | file (bytes : List UInt8)
  | directory
  | link (target : String)
  deriving DecidableEq, Repr, Inhabited

structure FileTree where
  entries : List (Location × Entry) := []
  /-- Where relative paths begin. -/
  workDir : Location := []
  deriving DecidableEq, Repr, Inhabited

/-- Where a path leads: to an entry, or to a free name in a directory. -/
inductive Place where
  | found (location : Location) (entry : Entry)
  | free (location : Location) (slash : Bool)
  deriving DecidableEq, Repr

namespace FileTree

def get? (t : FileTree) (l : Location) : Option Entry :=
  if l.isEmpty then some .directory else t.entries.lookup l

def erase (t : FileTree) (l : Location) : FileTree :=
  { t with entries := t.entries.filter (·.1 ≠ l) }

def put (t : FileTree) (l : Location) (e : Entry) : FileTree :=
  { t with entries := (l, e) :: (t.erase l).entries }

/-- The bytes of a name that a directory can hold. -/
def nameLimit : Nat := 255

/-- The bytes of a path, its end included. -/
def pathLimit : Nat := 4096

/-- The links that may be followed on one path. -/
def linkLimit : Nat := 40

/-- Follows names from a directory. A link at the end is followed if `follow` says so or if a slash is
behind it; `links` more links may be followed. -/
def walk (t : FileTree) (follow : Bool) (links : Nat) (here : Location) (slash : Bool) :
    List String → Except FileError Place
  | [] => .ok (.found here .directory)
  | name :: rest =>
    if name = "." then walk t follow links here slash rest
    else if name = ".." then walk t follow links here.dropLast slash rest
    else if nameLimit < Text.Utf8.size name.toList then .error .nameTooLong
    else
      let there := here ++ [name]
      match t.get? there with
      | none => if rest.isEmpty then .ok (.free there slash) else .error .notFound
      | some .directory => walk t follow links there slash rest
      | some (.file bytes) =>
        if rest.isEmpty && !slash then .ok (.found there (.file bytes)) else .error .notDirectory
      | some (.link target) =>
        if rest.isEmpty && !slash && !follow then .ok (.found there (.link target))
        else
          match links with
          | 0 => .error .tooManyLinks
          | links + 1 =>
            let p := Path.ofString target
            walk t follow links (if p.absolute then [] else here)
              (slash || rest.isEmpty && p.slash) (p.names ++ rest)
termination_by names => (links, names.length)

/-- What is wrong with the text of a path, whatever the tree holds. -/
def checkPath (path : String) : Except FileError Path :=
  if '\x00' ∈ path.toList then .error .nulInName
  else if path.isEmpty then .error .notFound
  else if pathLimit ≤ Text.Utf8.size path.toList then .error .nameTooLong
  else .ok (Path.ofString path)

def start (t : FileTree) (p : Path) : Location := if p.absolute then [] else t.workDir

def locate (t : FileTree) (follow : Bool) (path : String) : Except FileError Place := do
  let p ← checkPath path
  t.walk follow linkLimit (t.start p) p.slash p.names

def read (t : FileTree) (path : String) : Except FileError (List UInt8) := do
  match ← t.locate true path with
  | .found _ (.file bytes) => return bytes
  | .found _ .directory => throw .isDirectory
  | .found _ (.link _) => throw .tooManyLinks
  | .free _ _ => throw .notFound

def kind (t : FileTree) (path : String) : Option FileKind :=
  match t.locate true path with
  | .ok (.found _ (.file _)) => some .file
  | .ok (.found _ .directory) => some .directory
  | _ => none

/-- The names behind a location that begins with `base`. -/
def behind? (base l : Location) : Option (List String) :=
  match base, l with
  | [], l => some l
  | _ :: _, [] => none
  | b :: base, n :: l => if b = n then behind? base l else none

def filesBelow (t : FileTree) (path : String) : Except FileError (List (List String)) := do
  match ← t.locate true path with
  | .found base .directory =>
    return t.entries.filterMap fun (l, e) =>
      match e with
      | .file _ => behind? base l
      | _ => none
  | .free _ _ => throw .notFound
  | _ => throw .notDirectory

def makeDirectory (t : FileTree) (path : String) : Except FileError FileTree := do
  match ← t.locate false path with
  | .found _ _ => throw .alreadyExists
  | .free l _ => return t.put l .directory

/-- A name longer than every other one, of slashes alone, so that no path leads to it. -/
def freshName (t : FileTree) : String :=
  let longest := t.entries.foldl (fun n e => max n ((e.1.getLast?.getD "").length)) 0
  String.ofList (List.replicate (longest + 1) '/')

def stage (t : FileTree) (directory : String) (bytes : List UInt8) :
    Except FileError (StagedFile × FileTree) := do
  match ← t.locate true directory with
  | .found base .directory =>
    let l := base ++ [t.freshName]
    return (l, t.put l (.file bytes))
  | .free _ _ => throw .notFound
  | _ => throw .notDirectory

def discard (t : FileTree) (s : StagedFile) : FileTree := t.erase s

/-- Moves a staged file. A link in its place is replaced itself; a directory is not replaced. -/
def replace (t : FileTree) (s : StagedFile) (path : String) : Except FileError FileTree := do
  let p ← checkPath path
  match p.names.getLast? with
  | none => throw .busy
  | some name =>
    if name = "." || name = ".." then
      let _ ← t.walk true linkLimit (t.start p) true p.names.dropLast
      throw .busy
    let place ← t.walk false linkLimit (t.start p) false p.names
    if p.slash then throw .notDirectory
    let l ← match place with
      | .found _ .directory => throw .isDirectory
      | .found l _ => pure l
      | .free l _ => pure l
    match t.get? s with
    | some e => return (t.erase s).put l e
    | none => throw .notFound

def write (t : FileTree) (path : String) (bytes : List UInt8) : Except FileError FileTree := do
  match ← t.locate true path with
  | .found l (.file _) => return t.put l (.file bytes)
  | .found _ .directory => throw .isDirectory
  | .found _ (.link _) => throw .tooManyLinks
  | .free l slash => if slash then throw .isDirectory else return t.put l (.file bytes)

def remove (t : FileTree) (path : String) : Except FileError FileTree := do
  match ← t.locate false path with
  | .found _ .directory => throw .isDirectory
  | .found l _ => return t.erase l
  | .free _ _ => throw .notFound

/-- Everything below the working directory, each directory before what it holds. -/
def listing (t : FileTree) : List (List String × Entry) :=
  (t.entries.filterMap fun (l, e) =>
    match behind? t.workDir l with
    | some (n :: names) => some (n :: names, e)
    | _ => none).mergeSort fun a b => Path.before a.1 b.1

/-- The tree after an operation that may fail, and whether it did. -/
def settle (t : FileTree) : Except FileError FileTree → Except FileError Unit × FileTree
  | .ok t => (.ok (), t)
  | .error e => (.error e, t)

end FileTree

instance : FileSystem (StateM FileTree) where
  read path := fun t => (t.read path, t)
  kind path := fun t => (t.kind path, t)
  filesBelow path := fun t => (t.filesBelow path, t)
  makeDirectory path := fun t => t.settle (t.makeDirectory path)
  stage directory bytes := fun t =>
    match t.stage directory bytes with
    | .ok (s, t) => (.ok s, t)
    | .error e => (.error e, t)
  replace s path := fun t => t.settle (t.replace s path)
  discard s := fun t => ((), t.discard s)
  write path bytes := fun t => t.settle (t.write path bytes)
  remove path := fun t => t.settle (t.remove path)

end RestRoutes
