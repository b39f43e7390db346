import LineQuery.CommandLine.Tasks

/-!
# The program

Takes into a session what an invocation names on the file system, lets the invocation be
carried out there, and makes the file system as the disk is then. Workers may look at any file, so
for them all of the working folder is taken in.
-/

namespace LineQuery.CommandLine

open LineQuery.Files (Disk Entry Path Written.names Written.isAbsolute)
open LineQuery.Text (Bytes)

/-- The environment variables that are looked at. -/
def variableNames : List String :=
  [settingsVariable, "SIEVE_CACHE_DIR", "XDG_CACHE_HOME", "HOME", "PATH", "LANG", "USER"]

def Task.files : Task → List String
  | run q o => q.parts.filterMap partFile? ++ o.input.toList
  | check q => q.parts.filterMap partFile?
  | cache _ => []
where
  partFile? : QueryPart → Option String
    | .file name => some name
    | .code _ => none

/-- Whether a task hands lines to workers that the settings or the options name. -/
def Task.hasWorkers (s : Settings) : Task → Bool
  | run _ o => (o.command? s).toOption.any Option.isSome
  | check _ | cache _ => false

/-- Whether a task may read the standard input. -/
def Request.readsStdin (r : Request) : Bool :=
  let named := r.common.config.toList ++ r.task.files
  let runs :=
    match r.task with
    | .run _ o => o.input.isNone
    | _ => false
  runs || named.any fun name => name.startsWith "/dev/"

/-- A path as it is written from the root. -/
def written (path : Path) : String :=
  "/" ++ "/".intercalate path

/-- The disk with what stands at one path of the file system. -/
def takeIn (disk : Disk) (path : Path) : IO Disk := do
  if (disk.find? path).isSome then return disk
  let place := (← IO.currentDir) / written path
  if ← place.isDir then return disk.set path .folder
  match ← (IO.FS.readBinFile place).toBaseIO with
  | .ok bytes => return disk.set path (.file bytes.toList)
  | .error _ => return disk

/-- The paths on the way of a written path, seen from a folder. -/
def pathsOf (folder : Path) (text : String) : List Path :=
  let start := if Written.isAbsolute text then [] else folder
  let step := fun (paths : List Path) (name : String) =>
    let here := paths.headD start
    (if name = "." then here else if name = ".." then here.dropLast else here ++ [name]) :: paths
  ((Written.names text).foldl step [start]).reverse

/-- The disk with what stands at a written path and on the way there. -/
def takeInPath (folder : Path) (disk : Disk) (text : String) : IO Disk :=
  (pathsOf folder text).foldlM takeIn disk

/-- The disk with what stands in a folder, down to a depth. -/
def takeInFolder (disk : Disk) (path : Path) : (depth : Nat) → IO Disk
  | 0 => return disk
  | depth + 1 => do
    let disk ← takeIn disk path
    let place := (← IO.currentDir) / written path
    if ← place.isDir then
      (← place.readDir).toList.foldlM (fun d e => takeInFolder d (path ++ [e.fileName]) depth) disk
    else return disk

partial def readAll (stream : IO.FS.Stream) (read : ByteArray) : IO ByteArray := do
  let more ← stream.read 65536
  if more.isEmpty then return read else readAll stream (read ++ more)

/-- Puts on the file system what a disk has and another has not. -/
def putBack (old new : Disk) : IO Unit := do
  let byLength := fun (a b : Path × Entry) => decide (a.1.length ≤ b.1.length)
  for (path, e) in (new.entries.mergeSort byLength) do
    if old.find? path ≠ some e then
      match e with
      | .folder => IO.FS.createDirAll (written path)
      | .file bytes => IO.FS.writeBinFile (written path) ⟨bytes.toArray⟩
      | .device _ | .program _ => pure ()
  for (path, e) in (old.entries.mergeSort byLength).reverse do
    if (new.find? path).isNone then
      match e with
      | .folder => IO.FS.removeDir (written path)
      | .file _ => IO.FS.removeFile (written path)
      | .device _ | .program _ => pure ()

/-- The depth to which a folder is taken in. -/
def depthTaken : Nat := 8

/-- The session of a request. -/
def sessionOf (r : Request) : IO Session := do
  let folder := Written.names (toString (← IO.currentDir))
  let vars ← variableNames.filterMapM fun name => do
    return (← IO.getEnv name).map fun value => (name, value)
  let env : Environment := ⟨vars⟩
  let settingsFile := Settings.file? r.common.config (env.get? settingsVariable)
  let names := written folder :: settingsFile.toList ++ r.task.files
  let system := Disk.system Programs.programNames
  let disk ← names.foldlM (takeInPath folder) system
  let stdin ← if r.readsStdin then readAll (← IO.getStdin) ByteArray.empty
    else pure ByteArray.empty
  let session : Session := ⟨disk, folder, env, stdin.toList⟩
  match (Session.settings r.common).run session with
  | .error _ => return session
  | .ok (s, _) =>
    let store := session.store r.common s false
    let disk ← takeInPath folder disk store.location
    let place := ((pathsOf folder store.location).getLast?).getD folder
    let disk ← takeInFolder disk place 2
    let disk ← if r.task.hasWorkers s then takeInFolder disk folder depthTaken else pure disk
    return { session with disk }

/-- Writes what a reply has for the two streams. -/
def Reply.write (r : Reply) : IO Unit := do
  (← IO.getStdout).write ⟨r.stdout.toArray⟩
  (← IO.getStderr).write ⟨r.stderr.toArray⟩

end LineQuery.CommandLine

open LineQuery.CommandLine in
def main (args : List String) : IO UInt32 := do
  match Request.ofArgs args with
  | .error stop =>
    stop.reply.write
    return stop.reply.status.code.toUInt32
  | .ok r =>
    let session ← sessionOf r
    let (reply, disk) := session.carryOut r
    reply.write
    putBack session.disk disk
    return reply.status.code.toUInt32
