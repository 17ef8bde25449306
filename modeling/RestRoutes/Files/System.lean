import RestRoutes.Files.Error
import RestRoutes.Text.Utf8

namespace RestRoutes

inductive FileKind where
  | file
  | directory
  deriving DecidableEq, Repr

/-- A file that is written but not yet in its place, named by where it is kept. -/
abbrev StagedFile := List String

class FileSystem (m : Type → Type) where
  read : String → m (Except FileError (List UInt8))
  /-- What a path leads to. -/
  kind : String → m (Option FileKind)
  /-- The regular files below a directory, by the names that lead to them, in any order. -/
  filesBelow : String → m (Except FileError (List (List String)))
  makeDirectory : String → m (Except FileError Unit)
  /-- Writes a new file in a directory, under a name that nothing else has. -/
  stage : String → List UInt8 → m (Except FileError StagedFile)
  /-- Puts a staged file in the place of whatever a path names. -/
  replace : StagedFile → String → m (Except FileError Unit)
  discard : StagedFile → m Unit
  write : String → List UInt8 → m (Except FileError Unit)
  remove : String → m (Except FileError Unit)

namespace FileSystem

variable {m : Type → Type} [Monad m] [FileSystem m]

/-- The text of a file. -/
def readText (path : String) : m (Except FileError String) := do
  match ← read path with
  | .error e => return .error e
  | .ok bytes =>
    match Text.Utf8.decode? bytes with
    | some s => return .ok (String.ofList s)
    | none => return .error .notText

end FileSystem

end RestRoutes
