import LineQuery.Foreign.Programs.Shell.Lookup
import LineQuery.Foreign.Programs.Shell.Options
import LineQuery.Foreign.Programs.Shell.Printing
import LineQuery.Foreign.Programs.Shell.ReadLine

/-!
# Commands of the shell

The commands that a script can name and that are no programs, as far as they do not run other
commands. Each takes its arguments and gives its status.
-/

namespace LineQuery.Shell

open LineQuery.Text (Bytes encodeUtf8 decodeLossy natText)

/-! ## Arguments -/

/-- The number that an argument writes, which cannot be negative. -/
def naturalOf (arg : String) : InShell Nat := do
  match readDecimal? arg with
  | some n => if 0 ≤ n ∧ n ≤ 0x7fffffff then return n.toNat else badNumber arg
  | none => badNumber arg

/-- Gives up on an option. -/
def refuseOption (letter : Char) : InShell α :=
  giveUp ("Illegal option -" ++ String.singleton letter)

/-- The letters of the options that arguments start with, all of which have to be known, and the
arguments left. -/
def readFlags (known : List Char) : List String → InShell (List Char × List String)
  | [] => return ([], [])
  | arg :: args => do
    match arg.toList with
    | ['-', '-'] => return ([], args)
    | '-' :: c :: cs =>
      match (c :: cs).find? fun letter => !known.contains letter with
      | some letter => refuseOption letter
      | none =>
        let (more, args) ← readFlags known args
        return (c :: cs ++ more, args)
    | _ => return ([], arg :: args)

/-- Writes lines and gives a status. -/
def writeLines (lines : List String) (status : Nat) : InShell Nat :=
  writeOutput (encodeUtf8 (String.join (lines.map (· ++ "\n")))) status

/-! ## Folders -/

/-- The path behind one more name. -/
def stepInto (path : Files.Path) (name : String) : Files.Path :=
  if name = "." then path else if name = ".." then path.dropLast else path ++ [name]

/-- A path as it is written. -/
def pathText (path : Files.Path) : String :=
  "/" ++ "/".intercalate path

def runCd (args : List String) : InShell Nat := do
  let (_, args) ← readFlags ['L', 'P'] args
  let s ← get
  let m := s.memory
  let textOf := fun (name : String) => ((m.value? name).map decodeLossy).getD ""
  let target :=
    match args with
    | [] => textOf "HOME"
    | "-" :: _ => textOf "OLDPWD"
    | arg :: _ => arg
  let start := if Files.Written.isAbsolute target then [] else m.folder
  let path := (Files.Written.names target).foldl stepInto start
  match s.world.disk.find? path with
  | some .folder =>
    let before := pathText m.folder
    remember fun m => { m with folder := path }
    assign "OLDPWD" (encodeUtf8 before)
    assign "PWD" (encodeUtf8 (pathText path))
    if args.head? = some "-" then writeLines [pathText path] 0 else return 0
  | _ => giveUp ("can't cd to " ++ target)

def runPwd (args : List String) : InShell Nat := do
  let _ ← readFlags ['L', 'P'] args
  writeLines [pathText (← memory).folder] 0

/-! ## Names -/

def runType (args : List String) : InShell Nat := do
  let s ← get
  let meanings := args.map fun name => (name, meaningOf s.world.disk s.memory name)
  let lines := meanings.map fun (name, meaning) => meaning.describe name
  writeLines lines (if meanings.any (·.2 = .unknown) then 127 else 0)

/-- Tells what a name stands for, in short or not. -/
def describeCommand (short : Bool) (args : List String) : InShell Nat := do
  match args with
  | [] => return 0
  | name :: _ =>
    let s ← get
    let meaning := meaningOf s.world.disk s.memory name
    let status := if meaning = .unknown then 127 else 0
    if short then writeLines (meaning.brief name).toList status
    else writeLines [meaning.describe name] status

def runHash (args : List String) : InShell Nat := do
  let (_, names) ← readFlags ['r', 'v'] args
  let s ← get
  let missing := names.filter fun name => meaningOf s.world.disk s.memory name = .unknown
  for name in missing do complain (name ++ ": not found")
  return if missing.isEmpty then 0 else 1

/-! ## Aliases -/

/-- The place of a name in the list of aliases. Names with one place are listed in the order in
which they came. -/
def aliasPlace (name : String) : Nat :=
  let bytes := (encodeUtf8 name).map UInt8.toNat
  bytes.foldl (· + ·) (16 * bytes.headD 0) % 39

/-- Aliases with the text of one of them given. -/
def setAlias (name text : String) : Aliases → Aliases
  | [] => [(name, text)]
  | a :: as =>
    if a.1 = name then (name, text) :: as
    else if aliasPlace name < aliasPlace a.1 then (name, text) :: a :: as
    else a :: setAlias name text as

def runAlias (args : List String) : InShell Nat := do
  match args with
  | [] => writeLines ((← memory).aliases.map fun (name, text) => aliasText name text) 0
  | args =>
    let mut status := 0
    for arg in args do
      let cs := arg.toList
      let name := cs.take 1 ++ (cs.drop 1).takeWhile (· ≠ '=')
      if name.length < cs.length then
        let text := String.ofList (cs.drop (name.length + 1))
        remember fun m => { m with aliases := setAlias (String.ofList name) text m.aliases }
      else
        match (← memory).aliases.lookup arg with
        | some text => status := max status (← writeLines [aliasText arg text] 0)
        | none =>
          say ("alias: " ++ arg ++ " not found\n")
          status := 1
    return status

def runUnalias (args : List String) : InShell Nat := do
  let (flags, names) ← readFlags ['a'] args
  if flags.isEmpty then
    let mut status := 0
    for name in names do
      if ((← memory).aliases.lookup name).isNone then
        say ("unalias: " ++ name ++ " not found\n")
        status := 1
      remember fun m => { m with aliases := m.aliases.filter fun a => a.1 != name }
    return status
  else
    remember fun m => { m with aliases := [] }
    return 0

/-! ## Variables -/

/-- The name and the value of an argument that may be an assignment. -/
def splitAssignment (arg : Bytes) : String × Option Bytes :=
  let name := arg.takeWhile (· != 61)
  (decodeLossy name,
    if name.length < arg.length then some (arg.drop (name.length + 1)) else none)

/-- The variables that satisfy a test, by name, as a command writes them. -/
def listVariables (command : String) (test : Variable → Bool) : InShell Nat := do
  let vars := ((← memory).vars.filter fun (_, v) => test v).mergeSort fun a b => decide (a.1 ≤ b.1)
  let lines := vars.map fun (name, v) =>
    command ++ name ++ ((v.value.map fun value => "=" ++ quoteText (decodeLossy value)).getD "")
  writeLines lines 0

/-- Gives variables a mark, and values if they have some. -/
def markVariables (command : String) (test : Variable → Bool) (mark : Variable → Variable)
    (args : List Bytes) : InShell Nat := do
  match args with
  | [] => listVariables command test
  | [[45, 112]] => listVariables command test
  | args =>
    for arg in args do
      let (name, value) := splitAssignment arg
      requireName name
      match value with
      | some v => assign name v
      | none => pure ()
      markVariable name mark
    return 0

def runLocal (args : List Bytes) : InShell Nat := do
  if !(← memory).inFunction then giveUp "not in a function"
  else
    for arg in args do
      let (name, value) := splitAssignment arg
      requireName name
      hide name
      match value with
      | some v => assign name v
      | none => pure ()
    return 0

def runUnset (args : List String) : InShell Nat := do
  let (flags, names) ← readFlags ['f', 'v'] args
  for name in names do
    if flags.getLast? = some 'f' then
      remember fun m => { m with functions := m.functions.filter fun f => f.1 != name }
    else
      requireName name
      if ((← memory).find? name).any (·.fixed) then giveUp (name ++ ": is read only")
      else if name = "OPTIND" then badNumber ""
      else remember (·.eraseVariable name)
  return 0

/-- Turns options on and off, and sets parameters. -/
def runSet (args : List Bytes) : InShell Nat := do
  match args with
  | [] => listVariables "" fun v => v.value.isSome
  | args =>
    let o : OptionArgs := { letters := (← memory).options, args := args.map decodeLossy }
    match o.read false (args.length + 1) with
    | .error message => giveUp message
    | .ok o =>
      let left := args.drop (args.length - o.args.length)
      let options ← withoutMonitor o.letters
      remember fun m =>
        { m with options, params := if o.ended || !left.isEmpty then left else m.params }
      writeOutput (encodeUtf8 (String.join (o.shown.map (optionsText options)))) 0

def runShift (args : List String) : InShell Nat := do
  let count ← naturalOf (args.headD "1")
  if (← memory).params.length < count then giveUp "can't shift that many"
  else
    remember fun m => { m with params := m.params.drop count, optionPlace := {} }
    return 0

/-! ## Options among parameters -/

/-- An option that has been read: its letter, the value for it if one is set, what is said of it,
and the place behind it. -/
structure FoundOption where
  letter : UInt8
  value : Option Bytes
  notice : Option String
  place : OptionPlace

/-- The option that comes next in parameters, if one does. `quiet` leaves what is wrong to the
script. -/
def nextOption? (spec : Bytes) (params : List Bytes) (place : OptionPlace) :
    Option FoundOption × OptionPlace :=
  let quiet := spec.head? = some 58
  let (letters, place) : Bytes × OptionPlace :=
    match place.letters, params[place.index - 1]? with
    | [], some (45 :: c :: cs) => (c :: cs, ⟨place.index + 1, []⟩)
    | [], _ => ([], place)
    | letters, _ => (letters, place)
  match letters with
  | [] => (none, place)
  | [45] => (none, ⟨place.index, []⟩)
  | c :: more =>
    let here : OptionPlace := ⟨place.index, more⟩
    let name := decodeLossy [c]
    let known := spec.dropWhile fun b => b ≠ c || b = 58
    match known with
    | [] =>
      if quiet then (some ⟨63, some [c], none, here⟩, here)
      else (some ⟨63, none, some ("Illegal option -" ++ name ++ "\n"), here⟩, here)
    | _ :: 58 :: _ =>
      match more, params[place.index - 1]? with
      | [], none =>
        if quiet then (some ⟨58, some [c], none, here⟩, here)
        else (some ⟨63, none, some ("No arg for -" ++ name ++ " option\n"), here⟩, here)
      | [], some value => (some ⟨c, some value, none, ⟨place.index + 1, []⟩⟩, here)
      | value, _ => (some ⟨c, some value, none, ⟨place.index, []⟩⟩, here)
    | _ => (some ⟨c, some [], none, here⟩, here)

/-- Reads the next option among parameters or arguments into a variable. -/
def runGetopts (args : List Bytes) : InShell Nat := do
  match args with
  | spec :: name :: given =>
    let m ← memory
    let params := if given.isEmpty then m.params else given
    let start := if params.length + 1 < m.optionPlace.index then {} else m.optionPlace
    let (found, place) := nextOption? spec params start
    let place := (found.map (·.place)).getD place
    match found.bind (·.notice) with
    | some notice => say notice
    | none => pure ()
    match found with
    | some ⟨_, some value, _, _⟩ => assign "OPTARG" value
    | some ⟨_, none, _, _⟩ => remember (·.eraseVariable "OPTARG")
    | none => pure ()
    assign "OPTIND" (encodeUtf8 (natText place.index))
    remember fun m => { m with optionPlace := place }
    assignNamed (decodeLossy name) [(found.map (·.letter)).getD 63]
    return if found.isSome then 0 else 1
  | _ => giveUp "Usage: getopts optstring var [arg...]"

/-! ## Leaving -/

def runExit (args : List String) : InShell Nat := do
  match args with
  | [] => throw .ended
  | arg :: _ =>
    finish (← naturalOf arg)
    throw .ended

def runReturn (args : List String) : InShell Nat := do
  match args with
  | [] => throw .returned
  | arg :: _ =>
    finish (← naturalOf arg)
    throw .returned

/-- Leaves loops. -/
def runLeaveLoop (again : Bool) (args : List String) : InShell Nat := do
  let count ←
    match args with
    | [] => pure 1
    | arg :: _ => do
      let n ← naturalOf arg
      if n = 0 then badNumber arg else pure n
  let count := min count (← memory).loops
  if count = 0 then return 0
  else
    finish 0
    throw (.loopLeft again count)

/-! ## Signals -/

/-- The traps with another one in the place of that of a signal, by number. -/
def setTrap (traps : List (Nat × Bytes)) (signal : Nat) (action : Option Bytes) :
    List (Nat × Bytes) :=
  let others := traps.filter fun t => t.1 != signal
  ((action.map fun a => (signal, a)).toList ++ others).mergeSort fun a b => decide (a.1 ≤ b.1)

def runTrap (args : List Bytes) : InShell Nat := do
  let (_, texts) ← readFlags [] (args.map decodeLossy)
  let args := args.drop (args.length - texts.length)
  match args, texts with
  | [], _ =>
    let lines := (← memory).traps.map fun (signal, action) =>
      "trap -- " ++ quoteText (decodeLossy action) ++ " " ++ signalName signal
    writeLines lines 0
  | first :: rest, text :: names =>
    let isSignal := rest.isEmpty || (Text.readNat? text.toList).any (· ≤ lastSignal)
    let action := if isSignal || text = "-" then none else some first
    for name in if isSignal then text :: names else names do
      match signalOf? name with
      | some signal => remember fun m => { m with traps := setTrap m.traps signal action }
      | none =>
        say ("trap: " ++ name ++ ": bad trap\n")
        return 1
    return 0
  | _, _ => return 0

/-- What `kill` is asked for: to send a signal, or to list names. -/
inductive KillTask where
  | send (signal : Nat) (targets : List String)
  | list (args : List String)
deriving DecidableEq, Repr

/-- Gives up on the arguments of `kill`. -/
def refuseKill : InShell α :=
  giveUp ("Usage: kill [-s sigspec | -signum | -sigspec] [pid | job]... or\n" ++
    "kill -l [exitstatus]")

/-- What the arguments of `kill` ask for. -/
def killTask (args : List String) : InShell KillTask := do
  match args with
  | [] => refuseKill
  | arg :: rest =>
    match arg.toList with
    | '-' :: cs =>
      match signalOf? (String.ofList cs), cs with
      | some signal, _ => if rest.isEmpty then refuseKill else return .send signal rest
      | none, ['l'] => return .list rest
      | none, ['s'] =>
        match rest with
        | [] => giveUp "No arg for -s option"
        | name :: targets =>
          match signalOf? name with
          | some signal => if targets.isEmpty then refuseKill else return .send signal targets
          | none => giveUp ("invalid signal number or name: " ++ name)
      | none, ['-'] => if rest.isEmpty then refuseKill else return .send 15 rest
      | none, c :: _ => refuseOption c
      | none, [] => refuseKill
    | _ => return .send 15 (arg :: rest)

/-- The job of a process. -/
def job? (process : Nat) : InShell (Option Job) :=
  return (← get).jobs.find? fun j => j.process = process

/-- Puts another job in the place of that of the same process. -/
def setJob (job : Job) : InShell Unit :=
  modify fun s =>
    { s with jobs := s.jobs.map fun j => if j.process = job.process then job else j }

/-- Sends a signal to a process, and says whether there is one. -/
def sendSignal (signal process : Nat) : InShell Bool := do
  let m ← memory
  let enqueue : InShell Unit := modify fun s =>
    { s with world := { s.world with signals := s.world.signals ++ [(process, signal)] } }
  if process = m.process ∨ process = m.script ∨ process = m.parent then
    if signal ≠ 0 then enqueue
    return true
  else
    match ← job? process with
    | some job =>
      match job.work with
      | .done _ => return false
      | .waiting _ =>
        if endsProcess signal then setJob { job with work := .done (.killed signal) }
        return true
    | none => return false

/-- The process that an argument of `kill` or `wait` means. -/
def processOf (arg : String) : InShell Nat := do
  match arg.toList with
  | '%' :: cs =>
    let jobs := (← get).jobs
    let number := ((Text.readNat? cs).getD jobs.length) - 1
    match jobs[number]? with
    | some job => return job.process
    | none => giveUp ("No such job: " ++ arg)
  | '-' :: cs => naturalOf (String.ofList cs)
  | _ => naturalOf arg

def runKill (args : List String) : InShell Nat := do
  match ← killTask args with
  | .list [] => writeLines ("0" :: signalTable.map (·.2.1)) 0
  | .list (arg :: _) =>
    let n ← naturalOf arg
    let signal := if 128 < n then n - 128 else n
    if 0 < signal && signal ≤ lastSignal then writeLines [signalName signal] 0
    else giveUp ("invalid signal number or exit status: " ++ arg)
  | .send signal targets =>
    let mut status := 0
    for target in targets do
      if !(← sendSignal signal (← processOf target)) then
        complain "No such process\n"
        status := 1
    return status

/-! ## Permissions of new files -/

/-- Three octal digits behind a zero. -/
def maskText (mask : Nat) : String :=
  String.ofList ('0' :: [64, 8, 1].map fun unit => Nat.digitChar (mask / unit % 8))

/-- What a mask lets owners, groups and others do. -/
def maskSymbols (mask : Nat) : String :=
  let letters := fun (bits : Nat) =>
    (if bits / 4 % 2 = 0 then "r" else "") ++ (if bits / 2 % 2 = 0 then "w" else "") ++
      (if bits % 2 = 0 then "x" else "")
  "u=" ++ letters (mask / 64 % 8) ++ ",g=" ++ letters (mask / 8 % 8) ++ ",o=" ++ letters (mask % 8)

/-- The mask after one clause of a change written with letters. -/
def applyClause? (mask : Nat) (clause : List Char) : Option Nat :=
  let who := clause.takeWhile fun c => "ugoa".toList.contains c
  let who := if who.isEmpty || who.contains 'a' then ['u', 'g', 'o'] else who
  match clause.dropWhile fun c => "ugoa".toList.contains c with
  | op :: perms =>
    if "+-=".toList.contains op && perms.all fun c => "rwx".toList.contains c then
      let bits := (if perms.contains 'r' then 4 else 0) + (if perms.contains 'w' then 2 else 0) +
        (if perms.contains 'x' then 1 else 0)
      let change := fun (old : Nat) =>
        let allowed := 7 - old
        let allowed :=
          if op = '=' then bits else if op = '+' then allowed ||| bits
          else allowed &&& (7 - bits)
        7 - allowed
      let digit := fun (c : Char) (unit : Nat) =>
        unit * (if who.contains c then change (mask / unit % 8) else mask / unit % 8)
      some (digit 'u' 64 + digit 'g' 8 + digit 'o' 1)
    else none
  | [] => none

def runUmask (args : List String) : InShell Nat := do
  let (flags, args) ← readFlags ['S'] args
  let mask := (← memory).mask
  match args with
  | [] => writeLines [if flags.isEmpty then maskText mask else maskSymbols mask] 0
  | arg :: _ =>
    if arg.toList.head?.any Text.isDigit then
      match arg.toList.foldlM (fun n c => if '0' ≤ c ∧ c ≤ '7' then
          some (8 * n + (c.toNat - '0'.toNat)) else none) 0 with
      | some n =>
        remember fun m => { m with mask := n % 512 }
        return 0
      | none => badNumber arg
    else
      match (Text.split [','] arg.toList).foldlM applyClause? mask with
      | some mask =>
        remember fun m => { m with mask }
        return 0
      | none => giveUp ("Illegal mode: " ++ arg)

/-! ## All of them -/

/-- Runs a command of the shell itself that runs no other. -/
def runBuiltin (name : String) (args : List Bytes) : InShell Nat := do
  let texts := args.map decodeLossy
  match name with
  | "[" => runBracketTest args
  | "test" => runTest args
  | "echo" => runEcho args
  | "printf" => runPrintf args
  | "read" => runRead false args
  | "cd" | "chdir" => runCd texts
  | "pwd" => runPwd texts
  | "type" => runType texts
  | "alias" => runAlias texts
  | "unalias" => runUnalias texts
  | "hash" => runHash texts
  | "export" =>
    markVariables "export " (·.exported) (fun v => { v with exported := true }) args
  | "readonly" => markVariables "readonly " (·.fixed) (fun v => { v with fixed := true }) args
  | "local" => runLocal args
  | "unset" => runUnset texts
  | "set" => runSet args
  | "shift" => runShift texts
  | "getopts" => runGetopts args
  | "exit" => runExit texts
  | "return" => runReturn texts
  | "break" => runLeaveLoop false texts
  | "continue" => runLeaveLoop true texts
  | "trap" => runTrap args
  | "kill" => runKill texts
  | "umask" => runUmask texts
  | "ulimit" => writeLines ["unlimited"] 0
  | "times" => writeLines ["0m0.000000s 0m0.000000s", "0m0.000000s 0m0.000000s"] 0
  | "bg" | "fg" => giveUp "No current job"
  | "false" => return 1
  | _ => return 0

end LineQuery.Shell
