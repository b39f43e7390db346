import LineQuery.Foreign.Programs.Shell.Builtins
import LineQuery.Foreign.Programs.Shell.Expand
import LineQuery.Foreign.Programs.Tools

/-!
# Running shell scripts

Commands run one after another on a state. What runs as a process of its own runs at once, and
the commands of a pipe one after the other, each on what the one before has written; what runs in
the background runs when it is waited for, or at the end. A run takes a bound on the number of
nested and repeated commands.
-/

namespace LineQuery.Shell

open LineQuery.Files (DiskError)
open LineQuery.Text (Bytes encodeUtf8 decodeLossy natText)

/-- How a command is run. Where its failure is tested, it does not end the script. -/
abbrev Runner := (tested : Bool) → Command → InShell Unit

/-! ## Scripts -/

/-- Runs `body` to its end or to where it is left, and tells why it is. -/
def attempt (body : InShell Unit) : InShell (Option Interruption) := do
  try
    body
    return none
  catch e => return some e

/-- Gives up on a script that cannot be read on. -/
def refuseScript (e : SyntaxError) : InShell α := do
  remember fun m => { m with line := e.line }
  giveUp ("Syntax error: " ++ e.message)

/-- How many lines of a script, and how many nested and repeated commands, may be run. -/
def fuel : Nat := 10000000

/-- Runs the commands of a script, each read with the aliases that are there when it is reached,
`count` of them at most. A script without any succeeds; `isFirst` says that none has been run. -/
def runLines (run : Runner) (tested : Bool) : (isFirst : Bool) → (count : Nat) → Parsing →
    InShell Unit
  | _, 0, _ => return
  | isFirst, count + 1, p => do
    match p.next (← memory).aliases with
    | .error e => refuseScript e
    | .ok none => if isFirst then finish 0 else return
    | .ok (some (c, p)) =>
      run tested c
      runLines run tested false count p

/-- Runs the commands of a script. -/
def runScript (run : Runner) (tested : Bool) (text : String) : InShell Unit :=
  runLines run tested true fuel (.ofScript text)

/-! ## Signals -/

/-- Does what a process does when a signal comes. -/
def receive (run : Runner) (signal : Nat) : InShell Unit := do
  match (← memory).traps.lookup signal with
  | some action =>
    if !canCatch signal then throw (.killed signal)
    else if action.isEmpty then return
    else
      let status := (← memory).status
      runScript run false (decodeLossy action)
      finish status
  | none => if endsProcess signal then throw (.killed signal) else return

/-- Takes the signals that have been sent to the process. -/
def checkSignals (run : Runner) : InShell Unit := do
  let s ← get
  if s.world.signals.isEmpty then return
  else
    let (mine, others) := s.world.signals.partition fun entry => entry.1 = s.memory.process
    set { s with world := { s.world with signals := others } }
    for (_, signal) in mine do receive run signal

/-! ## Processes -/

/-- Runs what is to be run at the end of the process, and tells how it ends. -/
def endProcess (run : Runner) (left : Option Interruption) : InShell Outcome := do
  match left with
  | some (.killed signal) => return .killed signal
  | _ =>
    let m ← memory
    match m.traps.lookup 0 with
    | some action =>
      remember fun m => { m with traps := setTrap m.traps 0 none, loops := 0 }
      match ← attempt (runScript run false (decodeLossy action)) with
      | some .ended => return .exited (← memory).status
      | some (.killed signal) => return .killed signal
      | _ => return .exited m.status
    | none => return .exited m.status

def runJob (run : Runner) (job : Job) : InShell Outcome := do
  match job.work with
  | .done outcome => return outcome
  | .waiting body =>
    let before ← get
    set { before with memory := job.memory, jobs := [] }
    let outcome ← endProcess run (← attempt (run false body))
    modify fun s => { s with memory := before.memory, jobs := before.jobs }
    setJob { job with work := .done outcome }
    return outcome

/-- Runs a process to its end, and what it has left in the background behind it. -/
def settle (run : Runner) (body : InShell Unit) : InShell Outcome := do
  let outcome ← endProcess run (← attempt body)
  for job in (← get).jobs do
    let _ ← runJob run job
  return outcome

/-- What a new process remembers of another one. What was to be run when signals come is not. -/
def Memory.forked (m : Memory) (process : Nat) : Memory :=
  { m with process, traps := m.traps.filter fun t => t.2.isEmpty }

/-- The number of a new process. -/
def newProcess : InShell Nat := do
  let s ← get
  let process := s.world.lastProcess + 1
  set { s with world := { s.world with lastProcess := process } }
  return process

/-- Runs `body` as a process of its own. -/
def forked (run : Runner) (body : InShell Unit) : InShell Outcome := do
  let process ← newProcess
  let before ← get
  set { before with memory := before.memory.forked process, jobs := [] }
  let outcome ← settle run body
  modify fun s => { s with memory := before.memory, jobs := before.jobs }
  return outcome

/-- Says of which signal a process has died. -/
def report : Outcome → InShell Unit
  | .killed signal =>
    match deathNotice? signal with
    | some notice => say (notice ++ "\n")
    | none => return
  | .exited _ => return

/-- Reports how a process has ended and takes its status. -/
def conclude (outcome : Outcome) : InShell Unit := do
  report outcome
  finish outcome.status

/-- The output of what runs as a process of its own. -/
def outputOf (run : Runner) (body : InShell Unit) : InShell (Outcome × Bytes) := do
  let number ← newChannel (.sink [])
  let outcome ← forked run do
    point 1 (some number)
    body
  match ← channel? number with
  | some (.sink pieces) =>
    setChannel number (.device .null)
    return (outcome, pieces.reverse.flatten)
  | _ => return (outcome, [])

/-- The output of a script in a word. Zero bytes are left out. -/
def capture (run : Runner) (within : Enclosure) (text : String) : InShell Bytes := do
  let (outcome, bytes) ← outputOf run do
    match parseWithin (← memory).aliases within text with
    | .ok c => run false c
    | .error e => refuseScript e
  report outcome
  remember fun m => { m with wordStatus := outcome.status }
  return bytes.filter (· ≠ 0)

/-! ## Redirections -/

/-- A redirection whose words have been expanded. -/
inductive Prepared where
  | file (mode : FileMode) (name : String)
  | descriptor (n : Option Nat)
  | text (bytes : Bytes)
deriving DecidableEq, Repr

/-- Expands the words of a redirection. -/
def prepare (run : Runner) (r : Redirection) : InShell (Nat × Prepared) := do
  match r.target with
  | .file mode w =>
    return (r.descriptor, .file mode (decodeLossy (← expandValue (capture run) w)))
  | .descriptor n => return (r.descriptor, .descriptor n)
  | .text w => return (r.descriptor, .text (← expandValue (capture run) w))
  | .descriptorNamed w =>
    match (decodeLossy (← expandValue (capture run) w)).toList with
    | ['-'] => return (r.descriptor, .descriptor none)
    | [c] =>
      if Text.isDigit c then return (r.descriptor, .descriptor (some (c.toNat - '0'.toNat)))
      else giveUp "Syntax error: Bad fd number"
    | _ => giveUp "Syntax error: Bad fd number"

/-- Makes a redirection, or complains and says that it cannot be made. -/
def redirect (descriptor : Nat) : Prepared → InShell Bool
  | .file mode name => do
    match ← openFile mode name with
    | .ok number =>
      point descriptor (some number)
      return true
    | .error e =>
      complain (openFailure mode name e)
      return false
  | .descriptor none => do
    point descriptor none
    return true
  | .descriptor (some n) => do
    match ← channelOf? n with
    | some number =>
      point descriptor (some number)
      return true
    | none =>
      complain (natText n ++ ": " ++ StreamError.closed.reason)
      return false
  | .text bytes => do
    point descriptor (some (← newChannel (.source bytes false)))
    return true

/-- Makes redirections up to the first that cannot be made. -/
def redirectAll : List (Nat × Prepared) → InShell Bool
  | [] => return true
  | (descriptor, p) :: rest => do
    if ← redirect descriptor p then redirectAll rest else return false

/-- Runs `body`, after which descriptors stand for what they did before, unless `keeps`. -/
def withDescriptors (keeps : Bool) (body : InShell Unit) : InShell Unit := do
  let before := (← memory).descriptors
  try body
  finally if keeps then pure () else remember fun m => { m with descriptors := before }

/-! ## Programs -/

def runProgram (called : String) (env : Environment) (p : Programs.Program) : InShell Outcome := do
  let s ← get
  let input ← readable 0
  let conduct := p ⟨called, s.world.disk, s.memory.folder, env⟩ input
  match conduct.stopsAfter with
  | none => passOver 0 input.length true
  | some n => passOver 0 n false
  onDisk fun _ => conduct.disk
  let mut outcome : Outcome :=
    match conduct.exitCode with
    | some code => .exited code.toNat
    | none => .killed 13
  for (outlet, bytes) in conduct.written do
    if !bytes.isEmpty then
      match ← writeBytes (if outlet = .out then 1 else 2) bytes with
      | .ok () => pure ()
      | .error e =>
        say (called ++ ": write error: " ++ e.reason ++ "\n")
        outcome := .exited 1
  return outcome

/-- What a shell runs: the text of a script, a script in a file, or its input. -/
inductive Source where
  | text (script : String)
  | file (name : String)
  | input
deriving DecidableEq, Repr

/-- How a shell starts. -/
structure Start where
  source : Source
  letters : List Char
  name : String
  params : List String
deriving DecidableEq, Repr

/-- How a shell starts that is called with arguments. -/
def Start.ofArgs (called : String) (args : List String) : Except String Start := do
  let o ← OptionArgs.read true { letters := [], args } (args.length + 1)
  if o.hasScript then
    match o.args with
    | [] => throw "-c requires an argument"
    | text :: rest => return ⟨.text text, o.letters, rest.headD called, rest.drop 1⟩
  else
    match o.args with
    | name :: rest =>
      if o.letters.contains 's' then return ⟨.input, o.letters, called, o.args⟩
      else return ⟨.file name, o.letters, name, rest⟩
    | [] => return ⟨.input, switchLetter o.letters 's' true, called, []⟩

/-- The variables that a shell starts with: those that it is given, and some of its own. -/
def startingVariables (env : Environment) (folder : Files.Path) (parent : Nat) :
    List (String × Variable) :=
  let given := (env.vars.filter fun (name, _) => isName name).map fun (name, value) =>
    (name, ({ value := some (encodeUtf8 value), exported := true } : Variable))
  let plain := fun (name : String) (value : String) =>
    (name, ({ value := some (encodeUtf8 value) } : Variable))
  let kept := given.filter fun (name, _) => !(["IFS", "OPTIND", "PPID"].contains name)
  [plain "IFS" " \t\n", plain "OPTIND" "1", plain "PPID" (natText parent)] ++ kept ++
    ([plain "PATH" defaultFolders, plain "PWD" (pathText folder), plain "PS1" "# ",
      plain "PS2" "> ", plain "PS4" "+ "].filter fun (name, _) => (kept.lookup name).isNone)

/-- What a shell remembers at its start. -/
def Memory.starting (descriptors : List (Nat × Nat)) (folder : Files.Path) (env : Environment)
    (process parent : Nat) (start : Start) : Memory :=
  { descriptors, folder
    name := start.name
    params := start.params.map encodeUtf8
    vars := startingVariables env folder parent
    options := start.letters
    process
    script := process
    parent }

/-- The text of an open file. -/
def readChannel (number : Nat) : InShell String := do
  let before := (← memory).descriptors
  point 10 (some number)
  let bytes ← readAll 10
  remember fun m => { m with descriptors := before }
  return decodeLossy bytes

/-- Runs what a shell is to run. -/
def runSource (run : Runner) (called : String) : Source → InShell Unit
  | .text script => runScript run false script
  | .input => do runScript run false (decodeLossy (← readAll 0))
  | .file name => do
    match ← openFile .input name with
    | .ok number => runScript run false (← readChannel number)
    | .error e =>
      remember fun m => { m with name := called }
      giveUp (openFailure .input name e)

def runShell (run : Runner) (called : String) (env : Environment) (args : List String) :
    InShell Unit := do
  let m ← memory
  match Start.ofArgs called args with
  | .error message =>
    remember fun m => { m with name := called, line := 0, command := none }
    giveUp message
  | .ok start =>
    let ignored := m.traps
    remember fun m =>
      { Memory.starting m.descriptors m.folder env m.process m.parent start with traps := ignored }
    let options ← withoutMonitor start.letters
    remember fun m => { m with options }
    runSource run called start.source

/-- What the program does that runs another one with other variables: the variables, and the
command. -/
def readEnvironmentArgs (env : Environment) : List String → Environment × List String
  | [] => (env, [])
  | arg :: args =>
    let cs := arg.toList
    if arg = "-i" || arg = "-" then readEnvironmentArgs .empty args
    else if cs.contains '=' then
      let name := String.ofList (cs.takeWhile (· ≠ '='))
      let value := String.ofList ((cs.dropWhile (· ≠ '=')).drop 1)
      readEnvironmentArgs ⟨env.vars.filter (·.1 ≠ name) ++ [(name, value)]⟩ args
    else if arg = "--" then (env, args)
    else (env, arg :: args)

/-- Runs a program by the name that it is known by, with a command interpreter and a changer of
variables among the programs; `called` is the name in the arguments. -/
def launch (run : Runner) (m : Memory) : (count : Nat) → (called known : String) → Environment →
    List String → InShell Outcome
  | 0, _, _, _, _ => return .exited 126
  | count + 1, called, known, env, args =>
    match known with
    | "sh" | "dash" =>
      forked run do
        remember fun inner => { inner with parent := m.process }
        runShell run called env args
    | "env" =>
      match readEnvironmentArgs env args with
      | (env, []) => runProgram called env (Programs.writeEnvironment [])
      | (env, command :: rest) => do
        let path := env.vars.lookup "PATH"
        let m := { m with vars := (path.map fun p =>
          ("PATH", ({ value := some (encodeUtf8 p) } : Variable))).toList }
        match findProgram (← get).world.disk m command with
        | .ok (_, known) => launch run m count command known env rest
        | .error e =>
          let reason := if e = .notFound then DiskError.notFound else .notPermitted
          say (called ++ ": '" ++ command ++ "': " ++ reason.reason ++ "\n")
          return .exited (if e = .notFound then 127 else 126)
    | known =>
      match Programs.tool? known args with
      | some p => runProgram called env p
      | none => return .exited 127

/-- Runs the program that a command names, or complains that it cannot. -/
def runCommand (run : Runner) (name : String) (args : List String) :
    InShell (Except LookupError Outcome) := do
  let s ← get
  match findProgram s.world.disk s.memory name with
  | .ok (_, known) =>
    let m := s.memory
    return .ok (← launch run m (args.length + 1) name known m.environment args)
  | .error e => return .error e

/-- The status of a command that cannot be run. Whether it may be is only asked of a path. -/
def lookupStatus (name : String) (e : LookupError) : Nat :=
  if e = .notPermitted && name.toList.contains '/' then 126 else 127

/-! ## Commands of the shell that run others -/

/-- Runs a script that is read in from a file. -/
def runReadIn (run : Runner) : List Bytes → InShell Nat
  | [] => return 0
  | arg :: _ => do
    let name := decodeLossy arg
    let s ← get
    match findScript? s.world.disk s.memory name with
    | none => giveUp (name ++ ": not found")
    | some text =>
      match ← openFile .input text with
      | .error e => giveUp (openFailure .input text e)
      | .ok number =>
        let script ← readChannel number
        remember fun m => { m with command := some text }
        match ← attempt (runScript run false script) with
        | none | some .returned => return (← memory).status
        | some e => throw e

def runExec (run : Runner) : List Bytes → InShell Nat
  | [] => return 0
  | name :: args => do
    let name := decodeLossy name
    match ← runCommand run name (args.map decodeLossy) with
    | .error e =>
      complain (name ++ ": " ++ e.reason)
      finish (lookupStatus name e)
      throw .ended
    | .ok outcome =>
      remember fun m => { m with traps := [] }
      match outcome with
      | .exited code =>
        finish code
        throw .ended
      | .killed signal => throw (.killed signal)

/-- Waits for a job, whose death is told once. -/
def waitFor (run : Runner) (job : Job) : InShell Nat := do
  let outcome ← runJob run job
  report outcome
  setJob { job with work := .done (.exited outcome.status) }
  return outcome.status

def runWait (run : Runner) (args : List Bytes) : InShell Nat := do
  match args with
  | [] =>
    for job in (← get).jobs do
      let _ ← waitFor run job
    return 0
  | args =>
    let mut status := 0
    for arg in args do
      match ← job? (← processOf (decodeLossy arg)) with
      | some job => status ← waitFor run job
      | none => status := 127
    return status

/-- Runs a command of the shell itself. -/
def runOwn (run : Runner) (tested : Bool) (name : String) (args : List Bytes) : InShell Nat := do
  match name with
  | "eval" =>
    runScript run tested (decodeLossy ([32].intercalate args))
    return (← memory).status
  | "." => runReadIn run args
  | "exec" => runExec run args
  | "wait" => runWait run args
  | "command" => do
    let (flags, args) ← readFlags ['v', 'V', 'p'] (args.map decodeLossy)
    describeCommand (flags.contains 'v') args
  | name => runBuiltin name args

/-- Runs a command of the shell itself by its name. Unless it is a special one, a script goes on
after its errors. -/
def runNamedOwn (run : Runner) (tested special : Bool) (name : String) (args : List Bytes) :
    InShell Unit := do
  let before := (← memory).command
  remember fun m => { m with command := some name }
  let left ← attempt do finish (← runOwn run tested name args)
  remember fun m => { m with command := before }
  match left with
  | none => return
  | some .failed => if special then throw .failed else return
  | some e => throw e

/-! ## Simple commands -/

/-- What a command is, once its words have been expanded. -/
inductive Callee where
  | nothing
  | own (special : Bool) (name : String) (args : List Bytes)
  | function (body : Command) (args : List Bytes)
  | program (name : String) (args : List Bytes)

namespace Callee

/-- What is called behind the word that leaves out functions, if another command is. -/
def behindCommand : List Bytes → Option (List Bytes)
  | [] => none
  | arg :: args =>
    match decodeLossy arg with
    | "-p" => behindCommand args
    | "--" => if args.isEmpty then none else some args
    | text => if text.startsWith "-" then none else some (arg :: args)

/-- What fields call; `plainly` leaves out functions and the meaning of special commands. -/
def ofFields (m : Memory) (plainly : Bool) : (count : Nat) → List Bytes → Callee
  | 0, _ | _, [] => nothing
  | count + 1, field :: args =>
    let name := decodeLossy field
    if specialCommands.contains name then own (!plainly) name args
    else
      match if plainly then none else m.functions.lookup name with
      | some body => function body args
      | none =>
        if name = "command" then
          match behindCommand args with
          | some inner => ofFields m true count inner
          | none => own false name args
        else if plainCommands.contains name then own false name args
        else program name args

/-- Whether assignments before a command stay after it. -/
def keepsAssignments : Callee → Bool
  | nothing => true
  | own special _ _ => special
  | _ => false

/-- Whether redirections of a command stay after it. -/
def keepsRedirections : Callee → Bool
  | own _ name _ => name = "exec"
  | _ => false

/-- Whether the errors of a command end the script. -/
def isSpecial : Callee → Bool
  | own special _ _ => special
  | _ => false

end Callee

/-- The name before the equals sign of a word that is an assignment. -/
def assignmentWord? (w : Word) : Option (String × Word) :=
  assignment? w

/-- The fields of the words of a command. Behind a command that takes assignments, they are not
cut. -/
def expandCommand (run : Runner) : (fields : List Bytes) → List Word → InShell (List Bytes)
  | fields, [] => return fields
  | fields, w :: ws => do
    let takes := fields.head?.any fun name => takesAssignments (decodeLossy name)
    match if takes then assignmentWord? w else none with
    | some (name, value) =>
      let v ← expandAssigned (capture run) value
      expandCommand run (fields ++ [encodeUtf8 (name ++ "=") ++ v]) ws
    | none => expandCommand run (fields ++ (← expandWord (capture run) w)) ws

/-- Writes a command that is about to run to the error stream that was there before its
redirections. -/
def trace (run : Runner) (descriptors : List (Nat × Nat)) (assigned : List (String × Bytes))
    (fields : List Bytes) : InShell Unit := do
  let m ← memory
  if m.isOn 'x' then
    let lead := decodeLossy ((m.value? "PS4").getD [])
    let mark ←
      match textParts m.line lead with
      | .ok parts => expandValue (capture run) parts
      | .error _ => pure (encodeUtf8 lead)
    let parts := (assigned.map fun (name, v) => encodeUtf8 (name ++ "=") ++ v) ++ fields
    remember fun m => { m with descriptors }
    let _ ← writeBytes 2 (mark ++ [32].intercalate parts ++ [10])
    remember fun now => { now with descriptors := m.descriptors }

/-- Calls a function with arguments. -/
def callFunction (run : Runner) (tested : Bool) (body : Command) (args : List Bytes) :
    InShell Unit := do
  let m ← memory
  remember fun m =>
    { m with params := args, loops := 0, inFunction := true, optionPlace := {} }
  let left ← attempt (run tested body)
  remember fun now =>
    { now with
      params := m.params, loops := m.loops, inFunction := m.inFunction
      optionPlace := m.optionPlace }
  match left with
  | none | some .returned => return
  | some e => throw e

/-- Runs what a command calls. -/
def call (run : Runner) (tested : Bool) : Callee → InShell Unit
  | .nothing => do finish (← memory).wordStatus
  | .own special name args => runNamedOwn run tested special name args
  | .function body args => callFunction run tested body args
  | .program name args => do
    match ← runCommand run name (args.map decodeLossy) with
    | .ok outcome => conclude outcome
    | .error e =>
      finish (lookupStatus name e)
      complain (name ++ ": " ++ e.reason)

/-- Makes the assignments before a command; `exports` gives them to programs. -/
def assignAll (run : Runner) (hides exports : Bool) (as : List (String × Word)) :
    InShell (List (String × Bytes)) :=
  as.mapM fun (name, w) => do
    let v ← expandAssigned (capture run) w
    if hides then hide name
    assign name v
    if exports then markVariable name fun v => { v with exported := true }
    return (name, v)

def runSimple (run : Runner) (tested : Bool) (line : Nat) (as : List (String × Word))
    (ws : List Word) (rs : List Redirection) : InShell Unit := do
  remember fun m => { m with line, wordStatus := 0 }
  let fields ← expandCommand run [] ws
  let m ← memory
  let callee := Callee.ofFields m false (fields.length + 1) fields
  let hides := !callee.keepsAssignments
  let replaces := callee.keepsRedirections && 1 < fields.length
  let body := withDescriptors callee.keepsRedirections do
    let prepared ← rs.mapM (prepare run)
    if ← redirectAll prepared then
      let assigned ← assignAll run hides (hides || replaces) as
      if !(fields.isEmpty && assigned.isEmpty) then trace run m.descriptors assigned fields
      call run tested callee
    else
      finish 2
      if callee.isSpecial then throw .failed
  if hides then withHidden body else body

/-! ## Loops -/

/-- What comes after a part of a loop. -/
inductive LoopStep where
  | onward
  | again
  | stop
deriving DecidableEq, Repr

/-- Runs a part of a loop. -/
def runLoopPart (body : InShell Unit) : InShell LoopStep := do
  let loops := (← memory).loops
  remember fun m => { m with loops := loops + 1 }
  let left ← attempt body
  remember fun m => { m with loops }
  match left with
  | none => return .onward
  | some (.loopLeft again count) =>
    if 1 < count then throw (.loopLeft again (count - 1))
    else return if again then .again else .stop
  | some e => throw e

def runLoop (run : Runner) (tested untilSuccess : Bool) (cond body : Command) :
    (count : Nat) → (last : Nat) → InShell Unit
  | 0, _ => throw .ended
  | count + 1, last => do
    match ← runLoopPart (run true cond) with
    | .stop => finish last
    | .again => runLoop run tested untilSuccess cond body count last
    | .onward =>
      if ((← memory).status = 0) = untilSuccess then finish last
      else
        let step ← runLoopPart (run tested body)
        let last := (← memory).status
        if step = .stop then finish last
        else runLoop run tested untilSuccess cond body count last

/-- Repeats a body for each of some fields. -/
def runForEach (run : Runner) (tested : Bool) (name : String) (body : Command) :
    List Bytes → InShell Unit
  | [] => return
  | field :: fields => do
    assign name field
    if (← runLoopPart (run tested body)) = .stop then return
    else runForEach run tested name body fields

/-! ## Commands -/

/-- Runs the first of branches with a pattern that stands for a value. -/
def runBranches (run : Runner) (tested : Bool) (v : Bytes) :
    List (List Word × Command) → InShell Unit
  | [] => finish 0
  | (patterns, body) :: branches => do
    if ← coveredByAny (capture run) v patterns then run tested body
    else runBranches run tested v branches

/-- Ends the script after a command that has failed, if that was asked for. -/
def endIfFailed (tested : Bool) : InShell Unit := do
  let m ← memory
  if !tested && m.isOn 'e' && m.status ≠ 0 then throw .ended else return

/-- Starts a process in the background. -/
def startJob (body : Command) : InShell Unit := do
  let process ← newProcess
  let number ← newChannel (.device .null)
  let m ← memory
  let inner := m.forked process
  let others := inner.descriptors.filter fun d => d.1 != 0
  let job : Job :=
    ⟨process, { inner with descriptors := (0, number) :: others }, .waiting body⟩
  modify fun s => { s with jobs := s.jobs ++ [job] }
  remember fun m => { m with background := some process, status := 0 }

/-- Runs a command, for at most `fuel` nested and repeated ones. -/
def exec : (fuel : Nat) → Runner
  | 0, _, _ => do
    finish 2
    throw .ended
  | fuel + 1, tested, c => do
    if (← memory).isOn 'n' then return
    let run := exec fuel
    checkSignals run
    match c with
    | .skip => finish 0
    | .simple line as ws rs =>
      runSimple run tested line as ws rs
      checkSignals run
      endIfFailed tested
    | .redirect line body rs =>
      remember fun m => { m with line }
      let prepared ← rs.mapM (prepare run)
      withDescriptors false do
        if ← redirectAll prepared then run tested body else finish 2
    | .pipe left right =>
      let (first, bytes) ← outputOf run (run tested left)
      let number ← newChannel (.source bytes false)
      let second ← forked run do
        point 0 (some number)
        run tested right
      report first
      conclude second
      checkSignals run
      endIfFailed tested
    | .negate body =>
      run true body
      finish (if (← memory).status = 0 then 1 else 0)
    | .both left right =>
      run true left
      if (← memory).status = 0 then run tested right
    | .either left right =>
      run true left
      if (← memory).status ≠ 0 then run tested right
    | .sequence left right =>
      run tested left
      run tested right
    | .background body => startJob body
    | .subshell line body rs =>
      remember fun m => { m with line }
      let prepared ← rs.mapM (prepare run)
      let outcome ← forked run do
        if ← redirectAll prepared then run tested body
        else
          finish 2
          throw .failed
      conclude outcome
      checkSignals run
      endIfFailed tested
    | .choose cond yes no =>
      run true cond
      if (← memory).status = 0 then run tested yes else run tested no
    | .branch line subject branches =>
      remember fun m => { m with line }
      runBranches run tested (← expandValue (capture run) subject) branches
    | .define name body =>
      remember fun m =>
        { m with
          functions := (name, body) :: m.functions.filter fun f => f.1 != name
          status := 0 }
    | .loop untilSuccess cond body => runLoop run tested untilSuccess cond body fuel 0
    | .forEach line name ws body =>
      remember fun m => { m with line }
      let fields ← expandWords (capture run) ws
      if fields.isEmpty then finish 0 else runForEach run tested name body fields

/-! ## The command interpreter -/

/-- The number of the process that a shell is. -/
def firstProcess : Nat := 4000

/-- The state of a process with an input before it has done anything. -/
def State.before (disk : Files.Disk) (folder : Files.Path) (env : Environment) (input : Bytes) :
    State :=
  { world :=
      { channels := #[.source input false, .sink [], .sink []]
        disk
        lastProcess := firstProcess }
    memory :=
      Memory.starting [(0, 0), (1, 1), (2, 2)] folder env firstProcess (firstProcess - 1)
        ⟨.input, [], "sh", []⟩ }

/-- What a state at its end says of all that was done with an input. -/
def State.conduct (s : State) (outcome : Outcome) (offered : Nat) : Programs.Conduct :=
  let written := fun (number : Nat) =>
    match s.world.channels[number]? with
    | some (.sink pieces) => pieces.reverse.flatten
    | _ => []
  let left : Option Nat :=
    match s.world.channels[0]? with
    | some (Channel.source rest false) => some (offered - rest.length)
    | _ => none
  { stopsAfter := left
    written := [(.out, written 1), (.err, written 2)]
    exitCode :=
      match outcome with
      | .exited code => some (code % 256 : Nat)
      | .killed _ => none
    disk := s.world.disk }

/-- The program that does what a part of a script does. -/
def programOf (body : Runner → (called : String) → Environment → InShell Outcome) :
    Programs.Program :=
  fun s input =>
    let run := exec fuel
    let (result, after) := (body run s.name s.env).run (.before s.disk s.folder s.env input)
    let outcome :=
      match result with
      | .ok outcome => outcome
      | .error _ => .exited 2
    after.conduct outcome input.length

def shell (args : List String) : Programs.Program :=
  programOf fun run called env => settle run (runShell run called env args)

/-- The program that runs another one with other variables. -/
def changingVariables (args : List String) : Programs.Program :=
  programOf fun run called env => do
    launch run (← memory) (args.length + 1) called "env" env args

end LineQuery.Shell
