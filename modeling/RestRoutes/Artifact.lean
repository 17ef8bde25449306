import RestRoutes.Files.Path
import RestRoutes.Files.System

namespace RestRoutes

structure Artifact where
  path : String
  contents : String
  deriving DecidableEq, Repr, Inhabited

def Artifact.bytes (a : Artifact) : List UInt8 := Text.Utf8.encode a.contents.toList

inductive WriteError where
  | snapshot (path : String) (e : FileError)
  | staging (e : FileError)
  | replacing (path : String) (e : FileError)
  deriving DecidableEq, Repr

/-- What became of a place that was taken and had to be given back. -/
structure Rollback where
  path : String
  result : Except FileError Unit

structure WriteReport where
  result : Except WriteError Unit
  /-- Last taken first. -/
  rollbacks : List Rollback := []

/-- An artifact that is staged, with what its place held before. -/
structure Pending where
  path : String
  file : StagedFile
  previous : Option (List UInt8)

namespace Artifact

variable {m : Type → Type} [Monad m] [FileSystem m]
open FileSystem

/-- The contents of a place, `none` when nothing is there. -/
def snapshot (path : String) : m (Except FileError (Option (List UInt8))) := do
  match ← read path with
  | .ok bytes => return .ok (some bytes)
  | .error .notFound => return .ok none
  | .error e => return .error e

/-- Makes a directory and those above it; one that is there already is as good. -/
def makeDirectories (absolute : Bool) (names : List String) : m (Except FileError Unit) := do
  if names.isEmpty then return .ok ()
  let path := Path.Parts.toString ⟨absolute, names⟩
  match ← makeDirectory path with
  | .ok () => return .ok ()
  | .error .notFound =>
    match ← makeDirectories absolute names.dropLast with
    | .error e => return .error e
    | .ok () =>
      match ← makeDirectory path with
      | .ok () => return .ok ()
      | .error e => settle path e
  | .error e => settle path e
termination_by names.length
decreasing_by
  cases names with
  | nil => simp at *
  | cons n ns => simp
where
  settle (path : String) (e : FileError) : m (Except FileError Unit) := do
    return if (← kind path) = some .directory then .ok () else .error e

/-- Stages an artifact beside its place. -/
def stageOne (a : Artifact) : m (Except FileError StagedFile) := do
  let directory := Path.directoryOf a.path
  match ← makeDirectories directory.absolute directory.names with
  | .error e => return .error e
  | .ok () => stage directory.toString a.bytes

def discardAll : List Pending → m Unit
  | [] => return ()
  | p :: rest => do
    discard p.file
    discardAll rest

/-- Stages artifacts one after the other; `done` are staged already, the last one first. -/
def stageAll (done : List Pending) : List Artifact → m (Except WriteError (List Pending))
  | [] => return .ok done.reverse
  | a :: rest => do
    match ← snapshot a.path with
    | .error e =>
      discardAll done
      return .error (.snapshot a.path e)
    | .ok previous =>
      match ← a.stageOne with
      | .error e =>
        discardAll done
        return .error (.staging e)
      | .ok file => stageAll (⟨a.path, file, previous⟩ :: done) rest

/-- Gives a place back what it held. -/
def restore (p : Pending) : m Rollback := do
  match p.previous with
  | some bytes => return ⟨p.path, ← write p.path bytes⟩
  | none => return ⟨p.path, ← remove p.path⟩

def restoreAll : List Pending → m (List Rollback)
  | [] => return []
  | p :: rest => do
    let r ← restore p
    return r :: (← restoreAll rest)

/-- Takes one place after the other; `done` are taken already, the last one first. -/
def replaceAll (done : List Pending) : List Pending → m WriteReport
  | [] => return ⟨.ok (), []⟩
  | p :: rest => do
    match ← replace p.file p.path with
    | .ok () => replaceAll (p :: done) rest
    | .error e =>
      let rollbacks ← restoreAll done
      discardAll (p :: rest)
      return ⟨.error (.replacing p.path e), rollbacks⟩

/-- Puts every artifact in its place, or leaves all places as they were. -/
def writeAll (artifacts : List Artifact) : m WriteReport := do
  match ← stageAll [] artifacts with
  | .error e => return ⟨.error e, []⟩
  | .ok staged => replaceAll [] staged

/-- The paths whose contents are not those of the artifact, or that are not there. -/
def stale : List Artifact → m (Except FileError (List String))
  | [] => return .ok []
  | a :: rest => do
    match ← readText a.path with
    | .ok text =>
      if text = a.contents then stale rest else more a.path rest
    | .error .notFound => more a.path rest
    | .error e => return .error e
where
  more (path : String) (rest : List Artifact) : m (Except FileError (List String)) := do
    match ← stale rest with
    | .ok paths => return .ok (path :: paths)
    | .error e => return .error e

end Artifact

end RestRoutes
