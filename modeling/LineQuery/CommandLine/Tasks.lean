import LineQuery.CommandLine.Session
import LineQuery.Compile
import LineQuery.Diagnostic.Excerpt
import LineQuery.Diagnostic.Json
import LineQuery.Foreign.Programs.Find
import LineQuery.Plan.Run
import LineQuery.Pool.LineSink
import LineQuery.Pool.Pass
import LineQuery.Store.Plans

/-!
# Tasks

What comes of the arguments of one invocation in a session: a reply, and the disk after it.
A query is compiled through the store, and its diagnostics are written whether it was found
there or built; then its lines are written with a separator between them, or handed to
workers. The store changes the disk, and so may workers.
-/

namespace LineQuery.CommandLine

open LineQuery.Digest (Fingerprint)
open LineQuery.Files (Disk)
open LineQuery.Pool (CommandError Pass)
open LineQuery.Programs (StartError Surroundings)
open LineQuery.Store (ArtifactStore)
open LineQuery.Text (encodeUtf8)

/-! ## Diagnostics -/

/-- Diagnostics as they are written, each followed by a line end. -/
def diagnosticsText (format : ReportFormat) (color : Bool) (p : Program)
    (ds : List Diagnostic) : String :=
  String.join (ds.map fun d =>
    match format with
    | .text => Excerpt.render color p d ++ "\n"
    | .json => Diagnostic.toJson p d ++ "\n")

/-- Whether diagnostics on the standard error are coloured; it is no terminal. -/
def ColorChoice.onStderr : ColorChoice → Bool
  | always => true
  | auto | never => false

/-! ## Compiling -/

/-- The compilation of a query, from the store or built, and the disk after that. -/
def compileThrough (s : ArtifactStore) (d : Disk) (p : Program) :
    Except (List Diagnostic) Compilation × Disk :=
  let (result, d) := s.resolve Store.compilation (fun _ => compile p) d p.fingerprint
  (result.map (·.1), d)

/-- The diagnostics of a compilation that are shown. Without errors nothing is shown to who
wants quiet. -/
def shownDiagnostics (quiet : Bool) : Except (List Diagnostic) Compilation → List Diagnostic
  | .error ds => ds
  | .ok c => if quiet then [] else c.warnings

/-! ## Running -/

/-- The lines of a query, which may end in an error. -/
structure Output where
  lines : List String
  error : Option RunError
  warnings : List String

namespace Output

def source (o : Output) : List (Except String String) :=
  o.lines.map .ok ++ (o.error.map fun e => .error e.message).toList

/-- What the query warned of, a line each. -/
def warningText (o : Output) : String :=
  String.join (o.warnings.map (· ++ "\n"))

/-- The reply that writes the lines with a separator between them. -/
def direct (o : Output) (separator : String) : Reply :=
  let writing := Pool.LineSink.write (encodeUtf8 separator) .unlimited o.source
  let reply : Reply :=
    match writing.result with
    | .ok _ | .error (.output .closed) => { status := .success }
    | .error (.source message) => .error .failure message
    | .error (.output e) => .error .failure e.cause
  { reply.after "" o.warningText with stdout := writing.destination.bytes }

/-- The reply that hands the lines to `n` workers, which run a program somewhere, and the disk
after them. -/
def handedOut (o : Output) (program : Except StartError Programs.Program) (s : Surroundings)
    (n : Nat) (separator : String) : Reply × Disk :=
  let separator := encodeUtf8 separator
  let (starts, disk) :=
    match program with
    | .ok p =>
      let (workers, disk) := p.workersInTurn s (Pool.offers n separator o.source)
      ((Pool.slotsOf workers separator o.source).map .ok, disk)
    | .error e => ([.error e.message], s.disk)
  let pass := Pass.run s.name starts separator o.source .unlimited .unlimited
  let reply : Reply :=
    match pass.result with
    | .ok _ | .error (.output .closed) => { status := .success }
    | .error e => .error .failure e.message
  let warned :=
    match pass.result with
    | .error (.spawn _ _) => ""
    | _ => o.warningText
  ({ reply with
      stdout := pass.stdout.bytes
      stderr := encodeUtf8 warned ++ pass.stderr.bytes ++ reply.stderr }, disk)

end Output

/-- The worker that the options or the settings name, if they do. -/
def RunOptions.command? (o : RunOptions) (s : Settings) :
    Except CommandError (Option Pool.Command) :=
  match o.exec, s.workers.command with
  | some program, _ => (Pool.Command.parse program (o.execArgs.getD "")).map some
  | none, some program => (Pool.Command.parse program (s.workers.args.getD "")).map some
  | none, none => .ok none

/-- What the options or the settings have between lines. -/
def RunOptions.separatorText (o : RunOptions) (s : Settings) : String :=
  match o.separator with
  | some raw => Text.unescape raw
  | none => s.output.effective

/-- The reply that hands the lines of a query to `n` workers, and the disk after it. -/
def Session.handOut (session : Session) (output : Output) (c : Pool.Command) (n : Nat)
    (separator : String) : Reply × Disk :=
  let program := Programs.find session.disk session.folder session.env c
  output.handedOut program ⟨c.program, session.disk, session.folder, session.env⟩ n separator

/-- The reply of a query that has been compiled, and the disk after it. -/
def Session.stream (session : Session) (o : RunOptions) (s : Settings)
    (command : Option Pool.Command) (c : Compilation) : Reply × Disk :=
  match c.artifact.mainPlan with
  | .error e => (.error .failure e.message, session.disk)
  | .ok plan =>
    match session.input o.input with
    | .error message => (.error .failure message, session.disk)
    | .ok items =>
      let (lines, error, warnings) := (plan.invoke o.args).run items
      let output : Output := ⟨lines, error, warnings⟩
      let separator := o.separatorText s
      match command with
      | none => (output.direct separator, session.disk)
      | some command =>
        session.handOut output command (o.workers.getD s.workers.effectiveCount) separator

/-! ## Tasks -/

def Session.run (session : Session) (common : CommonOptions) (q : QueryOptions) (o : RunOptions) :
    Reply × Disk :=
  match (prepare common q).run session with
  | .error message => (.error .usage message, session.disk)
  | .ok ((s, p), session) =>
    match o.command? s with
    | .error e => (.error .usage e.message, session.disk)
    | .ok command =>
      let (result, disk) := compileThrough (session.store common s q.noCache) session.disk p
      let shown := diagnosticsText q.format common.color.onStderr p
        (shownDiagnostics common.quiet result)
      let (reply, disk) : Reply × Disk :=
        match result with
        | .error _ => ({ status := .query }, disk)
        | .ok c => { session with disk }.stream o s command c
      (reply.after "" shown, disk)

/-- What is said of a query that has been checked. -/
def verdict : Except (List Diagnostic) Compilation → String
  | .ok c =>
    "   Checked query using " ++ ", ".intercalate c.artifact.imports ++ ", " ++
      Text.natText c.warnings.length ++ " warning(s)\n"
  | .error _ => "   Result: query does not compile\n"

def Session.check (session : Session) (common : CommonOptions) (q : QueryOptions) : Reply × Disk :=
  match (prepare common q).run session with
  | .error message => (.error .usage message, session.disk)
  | .ok ((s, p), session) =>
    let (result, disk) := compileThrough (session.store common s q.noCache) session.disk p
    let shown := fun color =>
      diagnosticsText q.format color p (shownDiagnostics common.quiet result)
    let status : Status := if result.isOk then .success else .query
    let reply : Reply := { status }
    let reply :=
      match q.format with
      | .json => reply.after (shown false) ""
      | .text =>
        reply.after "" (shown common.color.onStderr ++
          if common.quiet then "" else verdict result)
    (reply, disk)

/-- Tells where the store of compiled queries is and what is in it, or clears it. -/
def Session.cache (session : Session) (common : CommonOptions) (action : CacheAction) :
    Reply × Disk :=
  match (settings common).run session with
  | .error e => (.error .usage e.message, session.disk)
  | .ok (s, session) =>
    let store := session.store common s false
    match action with
    | .path => (.saying (store.location ++ "\n"), session.disk)
    | .clear =>
      match store.clear session.disk with
      | (.error e, disk) => (.error .failure e.message, disk)
      | (.ok removed, disk) =>
        let said :=
          if removed && !common.quiet then "   Removed " ++ store.location ++ "\n" else ""
        (({ status := .success } : Reply).after "" said, disk)
    | .list =>
      match store.entries session.disk with
      | .error e => (.error .failure e.message, session.disk)
      | .ok entries =>
        let line := fun (key, size) => Fingerprint.toText key ++ "\t" ++ Text.natText size ++ "\n"
        (.saying (String.join (entries.map line)), session.disk)

def Session.carryOut (session : Session) (r : Request) : Reply × Disk :=
  match r.task with
  | .run q o => session.run r.common q o
  | .check q => session.check r.common q
  | .cache action => session.cache r.common action

/-! ## Invocations -/

def versionText : String :=
  "sieve " ++ toolVersion ++ "\n"

def usageText : String :=
  "Usage: sieve [OPTIONS] <run|check|cache> ...\n"

/-- What comes of arguments that ask for nothing to be carried out. -/
def Stop.reply : Stop → Reply
  | usage => { status := .usage, stderr := encodeUtf8 usageText }
  | version => .saying versionText
  | help => .saying usageText

/-- The reply to arguments, and the disk after it. -/
def Session.invoke (session : Session) (args : List String) : Reply × Disk :=
  match Request.ofArgs args with
  | .error stop => (stop.reply, session.disk)
  | .ok r => session.carryOut r

end LineQuery.CommandLine
