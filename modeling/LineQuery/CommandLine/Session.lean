import LineQuery.CommandLine.Reply
import LineQuery.CommandLine.Request
import LineQuery.Script.Program
import LineQuery.Settings.Location
import LineQuery.Store.Artifacts
import LineQuery.Text.Lines

/-!
# Sessions

What an invocation finds: the files of a disk, the folder it works in, the environment and
the standard input. From these come its settings, its query, the lines of its input and the
store of compiled queries. The standard input can also be read by the name of its device, and
can be read once only.
-/

namespace LineQuery.CommandLine

open LineQuery.Files (Disk DiskError Entry Path)
open LineQuery.Store (ArtifactStore)
open LineQuery.Text (Bytes)

/-- What an invocation finds. -/
structure Session where
  disk : Disk
  folder : Path
  env : Environment
  stdin : Bytes

/-- A step of an invocation, after which less may be left of the standard input. -/
abbrev InSession (ε α : Type) := StateT Session (Except ε) α

/-- A step whose errors are put in other terms. -/
def InSession.mapError (x : InSession ε α) (f : ε → δ) : InSession δ α := fun session =>
  (x session).mapError f

/-- The version of the tool, which only gives artifacts of its own version. -/
def toolVersion : String := "0.1.0"

/-- The environment variable that names a settings file. -/
def settingsVariable : String := "SIEVE_CONFIG"

/-- Why there is no query. -/
inductive QueryError where
  | unreadable (path cause : String)
  | blank
deriving DecidableEq, Repr

def QueryError.message : QueryError → String
  | unreadable path cause => "cannot read " ++ path ++ ": " ++ cause
  | blank => "no query given; pass CODE or --import FILE"

def notText : String := "stream did not contain valid UTF-8"

namespace Session

/-- The standard input, of which nothing is left. -/
def takeStdin (session : Session) : Bytes × Session :=
  (session.stdin, { session with stdin := [] })

def readBytes (name : String) : InSession DiskError Bytes := fun session =>
  match session.disk.locate session.folder name with
  | .ok (_, .device (.descriptor 0)) => .ok session.takeStdin
  | _ => (session.disk.read session.folder name).map (·, session)

/-- The text of the file of a name, or what is said where there is none; `refused` makes an
error of that. -/
def readText (refused : String → ε) (name : String) : InSession ε String := fun session =>
  match readBytes name session with
  | .error e => .error (refused e.message)
  | .ok (bytes, session) =>
    match Text.decodeUtf8? bytes with
    | some text => .ok (text, session)
    | none => .error (refused notText)

/-- The settings of an invocation: those of the file that is named, if one is. -/
def settings (o : CommonOptions) : InSession Settings.LoadError Settings := do
  match Settings.file? o.config ((← get).env.get? settingsVariable) with
  | none => return {}
  | some name => StateT.lift (Settings.ofText (← readText (.unreadable name) name))

def partText : QueryPart → InSession QueryError String
  | .code text => return text
  | .file name => readText (.unreadable name) name

/-- The query of an invocation. Its libraries are those of the settings and of the options. -/
def query (s : Settings) (o : QueryOptions) : InSession QueryError Program := do
  let texts ← o.parts.mapM partText
  let p := (s.query.imports ++ o.uses).foldl Program.addImport Program.empty
  let p := texts.foldl Program.addText p
  if p.isBlank then throw .blank else return p

/-- The settings and the query of an invocation, or what is said where there are none. -/
def prepare (common : CommonOptions) (q : QueryOptions) :
    InSession String (Settings × Program) := do
  let s ← (settings common).mapError Settings.LoadError.message
  let p ← (query s q).mapError QueryError.message
  return (s, p)

def store (session : Session) (o : CommonOptions) (s : Settings) (disabled : Bool) :
    ArtifactStore :=
  { folder := session.folder
    location := s.cacheDir o.cacheDir session.env
    enabled := s.cache.enabled && !disabled
    tool := toolVersion }

/-- The lines of bytes, as items of an input. -/
def itemsOf (bytes : Bytes) : List (Except String String) :=
  (Text.lossyLines bytes).map .ok

/-- The input of a run, from a file or from the standard input, or what is said where there
is none. A folder can be opened but not read. -/
def input (session : Session) : Option String → Except String (List (Except String String))
  | none => .ok (itemsOf session.stdin)
  | some name =>
    match readBytes name session with
    | .ok (bytes, _) => .ok (itemsOf bytes)
    | .error .isAFolder => .ok [.error DiskError.isAFolder.message]
    | .error e => .error ("cannot open " ++ name ++ ": " ++ e.message)

end Session

end LineQuery.CommandLine
