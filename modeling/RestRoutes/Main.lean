import RestRoutes.Command.Run

namespace RestRoutes

def FileError.ofIO (e : IO.Error) : FileError :=
  match e with
  | .alreadyExists .. => .alreadyExists
  | .noFileOrDirectory .. => .notFound
  | .noSuchThing .. => .notFound
  | .resourceBusy .. => .busy
  | .inappropriateType _ code _ => if code = 21 then .isDirectory else .notDirectory
  | e => .other (toString e)

namespace Machine

def attempt {α : Type} (x : IO α) : IO (Except FileError α) := do
  try
    return .ok (← x)
  catch e =>
    return .error (FileError.ofIO e)

/-- No file has an empty path, and none has a NUL in it. -/
def onPath {α : Type} (path : String) (x : IO α) : IO (Except FileError α) :=
  if path.toList.contains '\x00' then return .error .nulInName
  else if path.isEmpty then return .error .notFound
  else attempt x

def kind (path : String) : IO (Option FileKind) := do
  let there := (← IO.currentDir) / path
  match ← onPath path there.metadata with
  | .ok data =>
    match data.type with
    | .file => return some .file
    | .dir => return some .directory
    | _ => return none
  | .error _ => return none

/-- The regular files below a directory. Links are not followed. -/
partial def filesBelow (path : String) (names : List String) : IO (List (List String)) := do
  let here := (← IO.currentDir) / "/".intercalate (path :: names)
  let mut found := []
  for entry in ← here.readDir do
    let below := names ++ [entry.fileName]
    match (← entry.path.symlinkMetadata).type with
    | .file => found := below :: found
    | .dir => found := (← filesBelow path below) ++ found
    | _ => pure ()
  return found

def stage (directory : String) (bytes : List UInt8) : IO StagedFile := do
  let number ← IO.rand 0 0xffffffffffff
  let path := Path.join directory [".tmp" ++ String.ofList (Nat.toDigits 16 number)]
  let handle ← IO.FS.Handle.mk path .writeNew
  handle.write ⟨bytes.toArray⟩
  handle.flush
  return [path]

def discard (s : StagedFile) : IO Unit := do
  for path in s do
    let _ ← attempt (IO.FS.removeFile path)

end Machine

instance : FileSystem IO where
  read path := Machine.onPath path do return (← IO.FS.readBinFile path).toList
  kind := Machine.kind
  filesBelow path := Machine.onPath path (Machine.filesBelow path [])
  makeDirectory path := Machine.onPath path (IO.FS.createDir path)
  stage directory bytes := Machine.attempt (Machine.stage directory bytes)
  replace s path := Machine.onPath path do
    for staged in s do IO.FS.rename staged path
  discard := Machine.discard
  write path bytes := Machine.onPath path (IO.FS.writeBinFile path ⟨bytes.toArray⟩)
  remove path := Machine.onPath path (IO.FS.removeFile path)

def Notice.line (n : Notice) : String :=
  let level := match n.severity with
    | .warning => "WARN"
    | .error => "ERROR"
  level ++ " " ++ n.message ++
    String.join (n.fields.map fun (name, value) => " " ++ name ++ "=" ++ value)

def usage : String :=
  "usage: routegen [-v] generate --spec FILE --sources PATH... --routes-out FILE --dispatch-out FILE\n" ++
  "           [--docs-out FILE] [--router crow|actix] [--non-dispatchable ID]... [--title TEXT]\n" ++
  "           [--config FILE] [--check]\n" ++
  "       routegen [-v] routes --spec FILE [--non-dispatchable ID]... [--config FILE]"

end RestRoutes

open RestRoutes

def main (args : List String) : IO UInt32 := do
  let env : Environment := ⟨← IO.getEnv "ROUTEGEN_CONFIG", ← IO.getEnv "ROUTEGEN_ROUTER"⟩
  let ended ← program env args
  match ended with
  | none => IO.eprintln usage
  | some outcome =>
    for notice in outcome.notices do IO.eprintln notice.line
    match outcome.result with
    | .ok text => IO.print text
    | .error failure => IO.eprintln ("error: " ++ failure.message)
  return exitCode ended
