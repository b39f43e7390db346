import LineQuery.Foreign.Programs.Shell.State

/-!
# Descriptors of a shell

Opening, reading and writing what descriptors stand for. What is written to a file stands on
the disk at once.
-/

namespace LineQuery.Shell

open LineQuery.Files (Device Disk DiskError Entry)
open LineQuery.Text (Bytes encodeUtf8 decodeLossy natText)

/-! ## Failures -/

/-- Why a descriptor cannot be read or written. -/
inductive StreamError where
  /-- The descriptor stands for nothing, or cannot be used in this way. -/
  | closed
  | disk (cause : DiskError)
deriving DecidableEq, Repr

def StreamError.reason : StreamError → String
  | closed => "Bad file descriptor"
  | disk cause => cause.reason

/-! ## Channels -/

/-- Changes the disk. -/
def onDisk (f : Disk → Disk) : InShell Unit :=
  modify fun s => { s with world := { s.world with disk := f s.world.disk } }

/-- A new channel, by its number. -/
def newChannel (c : Channel) : InShell Nat := do
  let s ← get
  let number := s.world.channels.size
  set { s with world := { s.world with channels := s.world.channels.push c } }
  return number

/-- The channel of a number. -/
def channel? (number : Nat) : InShell (Option Channel) :=
  return (← get).world.channels[number]?

/-- Puts another channel in the place of one. -/
def setChannel (number : Nat) (c : Channel) : InShell Unit :=
  modify fun s =>
    { s with world := { s.world with channels := s.world.channels.setIfInBounds number c } }

/-- The number of the channel that a descriptor stands for. -/
def channelOf? (descriptor : Nat) : InShell (Option Nat) :=
  return (← memory).descriptors.lookup descriptor

/-- Lets a descriptor stand for a channel, or for nothing. -/
def point (descriptor : Nat) (target : Option Nat) : InShell Unit :=
  remember fun m =>
    let others := m.descriptors.filter fun d => d.1 != descriptor
    { m with descriptors := (target.map fun number => (descriptor, number)).toList ++ others }

/-! ## Reading and writing -/

/-- Bytes with others written over them from a position on. -/
def putAt (old : Bytes) (position : Nat) (new : Bytes) : Bytes :=
  old.take position ++ List.replicate (position - old.length) 0 ++ new ++
    old.drop (position + new.length)

/-- The bytes of an entry. -/
def bytesOf : Option Entry → Bytes
  | some (.file bytes) => bytes
  | _ => []

/-- Writes bytes to a descriptor, or tells why it cannot. -/
def writeBytes (descriptor : Nat) (bytes : Bytes) : InShell (Except StreamError Unit) := do
  match ← channelOf? descriptor with
  | none => return .error .closed
  | some number =>
    match ← channel? number with
    | some (.sink pieces) =>
      setChannel number (.sink (bytes :: pieces))
      return .ok ()
    | some (.file path position appends) =>
      let old := bytesOf ((← get).world.disk.find? path)
      let start := if appends then old.length else position
      onDisk fun d => d.set path (.file (putAt old start bytes))
      setChannel number (.file path (start + bytes.length) appends)
      return .ok ()
    | some (.device .full) => return if bytes.isEmpty then .ok () else .error (.disk .noSpace)
    | some (.device _) => return .ok ()
    | some (.source _ _) | none => return .error .closed

/-- What can be read from a descriptor. -/
def readable (descriptor : Nat) : InShell Bytes := do
  match ← channelOf? descriptor with
  | none => return []
  | some number =>
    match ← channel? number with
    | some (.source rest _) => return rest
    | some (.file path position _) =>
      return (bytesOf ((← get).world.disk.find? path)).drop position
    | _ => return []

/-- Passes over a number of bytes of what can be read from a descriptor; `sawEnd` says whether
more of it was asked for. -/
def passOver (descriptor count : Nat) (sawEnd : Bool) : InShell Unit := do
  match ← channelOf? descriptor with
  | none => return
  | some number =>
    match ← channel? number with
    | some (.source rest seen) => setChannel number (.source (rest.drop count) (seen || sawEnd))
    | some (.file path position appends) =>
      setChannel number (.file path (position + count) appends)
    | _ => return

/-- Takes what can be read from a descriptor. -/
def readAll (descriptor : Nat) : InShell Bytes := do
  let bytes ← readable descriptor
  passOver descriptor bytes.length true
  return bytes

/-! ## Messages -/

/-- Writes a text to the error stream. -/
def say (text : String) : InShell Unit := do
  let _ ← writeBytes 2 (encodeUtf8 text)

def complain (message : String) : InShell Unit := do
  let m ← memory
  let who := (m.command.map (· ++ ": ")).getD ""
  say (m.name ++ ": " ++ natText m.line ++ ": " ++ who ++ message ++ "\n")

/-- Complains and gives up. -/
def giveUp (message : String) : InShell α := do
  finish 2
  complain message
  throw .failed

/-- Complains with another status and gives up. -/
def giveUpWith (status : Nat) (message : String) : InShell α := do
  finish status
  complain message
  throw .failed

/-- Gives up on what should be a number. -/
def badNumber (text : String) : InShell α :=
  giveUp ("Illegal number: " ++ text)

/-! ## Opening -/

/-- What stands for an entry that is opened for reading. -/
def channelForReading (path : Files.Path) : Entry → Channel
  | .file _ => .file path 0 false
  | .device d => .device d
  | .folder | .program _ => .source [] false

/-- Opens a file for writing. -/
def openForWriting (mode : FileMode) (name : String) : InShell (Except DiskError Nat) := do
  let s ← get
  let folder := s.memory.folder
  match s.world.disk.placeForFile folder name with
  | .error e => return .error e
  | .ok path =>
    match s.world.disk.find? path with
    | some (.device d) => return .ok (← newChannel (.device d))
    | found =>
      if found.isSome && mode = .output && s.memory.isOn 'C' then return .error .exists
      else
        if found.isNone || mode = .output || mode = .replace then
          onDisk fun d => d.set path (.file [])
        return .ok (← newChannel (.file path 0 (mode = .append)))

/-- Opens a file, by the number of its channel. A name of a descriptor stands for what the
descriptor stands for. -/
def openFile (mode : FileMode) (name : String) : InShell (Except DiskError Nat) := do
  let s ← get
  match s.world.disk.locate s.memory.folder name with
  | .ok (_, .device (.descriptor n)) =>
    match ← channelOf? n with
    | some number => return .ok number
    | none => return .error .notFound
  | .ok (_, .device .terminal) => return .error .noDevice
  | .ok (path, e) =>
    if mode = .input then return .ok (← newChannel (channelForReading path e))
    else openForWriting mode name
  | .error e => if mode = .input then return .error e else openForWriting mode name

/-- What is said of a file that cannot be opened. -/
def openFailure (mode : FileMode) (name : String) (e : DiskError) : String :=
  let isMissing := e = .notFound || e = .notAFolder
  if mode = .input then
    "cannot open " ++ name ++ ": " ++ (if isMissing then "No such file" else e.reason)
  else
    "cannot create " ++ name ++ ": " ++ (if isMissing then "Directory nonexistent" else e.reason)

end LineQuery.Shell
