import RestRoutes.Text.Search

namespace RestRoutes

/-- The names of a path, without the empty ones, and what stands around them. -/
structure Path where
  absolute : Bool
  names : List String
  /-- A slash at the end asks for a directory. -/
  slash : Bool
  deriving DecidableEq, Repr, Inhabited

namespace Path

def ofString (s : String) : Path where
  absolute := s.toList.head? = some '/'
  names := ((s.toList.splitOn '/').filter (!·.isEmpty)).map String.ofList
  slash := s.toList.getLast? = some '/'

/-- A dot among the names says nothing, but for one that begins a relative path. -/
def dropDots (absolute : Bool) : List String → List String
  | [] => []
  | n :: rest =>
    (if n = "." && absolute then [] else [n]) ++ rest.filter (· ≠ ".")

/-- The parts of a path by which two of them are the same. -/
structure Parts where
  absolute : Bool
  names : List String
  deriving DecidableEq, Repr, Inhabited

def parts (s : String) : Parts :=
  let p := ofString s
  ⟨p.absolute, dropDots p.absolute p.names⟩

def Parts.toString (p : Parts) : String :=
  (if p.absolute then "/" else "") ++ "/".intercalate p.names

/-- The path without its last name. -/
def parent (p : Parts) : Parts := { p with names := p.names.dropLast }

/-- The directory that a file is written in: the current one if the path names no other. -/
def directoryOf (s : String) : Parts :=
  let p := parts s
  if p.names.isEmpty || !p.absolute && (parent p).names.isEmpty then ⟨false, ["."]⟩ else parent p

/-- A name put behind a path. -/
def join (base : String) (names : List String) : String :=
  base ++ (if base.toList.getLast? = some '/' then "" else "/") ++ "/".intercalate names

/-- What follows the last dot of a name, unless the name begins with that dot. -/
def extension? (name : String) : Option String :=
  let after := name.toList.reverse.takeWhile (· ≠ '.')
  match name.toList.reverse.dropWhile (· ≠ '.') with
  | '.' :: _ :: _ => some (String.ofList after.reverse)
  | _ => none

/-- The order of a walk that takes the entries of each directory by name. -/
def before : List String → List String → Bool
  | [], _ => true
  | _ :: _, [] => false
  | a :: as, b :: bs => if a = b then before as bs else a < b

end Path

end RestRoutes
