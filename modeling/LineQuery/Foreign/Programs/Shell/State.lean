import LineQuery.Foreign.Programs.Basic
import LineQuery.Foreign.Programs.Shell.Signal
import LineQuery.Foreign.Programs.Shell.Syntax

/-!
# The state of a shell

What a script reads, writes and remembers while it runs. Descriptors stand for channels, and
several of them may stand for the same one. A part of a script that runs as a process of its
own has its own state, but shares the channels, the disk and the signals.
-/

namespace LineQuery.Shell

open LineQuery.Files (Device Disk DiskError Path)
open LineQuery.Text (Bytes encodeUtf8 decodeLossy natText)

/-! ## What processes share -/

/-- What can be read or written through a descriptor. -/
inductive Channel where
  /-- Bytes that wait to be read, and whether their end has been seen. -/
  | source (rest : Bytes) (sawEnd : Bool)
  /-- What has been written, the latest piece first. -/
  | sink (pieces : List Bytes)
  /-- A file from a position on; `appends` writes behind its end. -/
  | file (path : Path) (position : Nat) (appends : Bool)
  | device (d : Device)

/-- What the processes of a script share: channels, the disk, signals that have been sent to
a process, and the number of the process that was started last. -/
structure World where
  channels : Array Channel
  disk : Disk
  signals : List (Nat × Nat) := []
  lastProcess : Nat

/-! ## What a process remembers -/

/-- A variable: its value unless it has none, whether programs are given it, and whether it
cannot be changed. -/
structure Variable where
  value : Option Bytes := none
  exported : Bool := false
  fixed : Bool := false
deriving DecidableEq, Repr

/-- How a process has ended. -/
inductive Outcome where
  | exited (code : Nat)
  | killed (signal : Nat)
deriving DecidableEq, Repr

def Outcome.status : Outcome → Nat
  | exited code => code % 256
  | killed signal => 128 + signal

/-- Why what runs is left before its end. -/
inductive Interruption where
  /-- A message has been given; a script ends there. -/
  | failed
  /-- The process ends with its status. -/
  | ended
  | killed (signal : Nat)
  /-- Loops are left, `count` of them, the last of which is gone on with if `again`. -/
  | loopLeft (again : Bool) (count : Nat)
  /-- A function or a script that was read in is left. -/
  | returned
deriving DecidableEq, Repr

/-- What a process does in the background, or has done. -/
inductive Work where
  /-- Has not been begun. -/
  | waiting (body : Command)
  | done (outcome : Outcome)

/-- The place in the arguments that options are read from: the number of the next argument and
the letters left of the one before. -/
structure OptionPlace where
  index : Nat := 1
  letters : Bytes := []
deriving DecidableEq, Repr

/-- What a process of a script remembers. -/
structure Memory where
  descriptors : List (Nat × Nat)
  folder : Path
  /-- The name by which the script is called. -/
  name : String
  /-- The command of the shell itself that runs, if one does. -/
  command : Option String := none
  line : Nat := 0
  params : List Bytes
  vars : List (String × Variable)
  /-- For each function that runs, the variables that it has hidden. -/
  hidden : List (List (String × Option Variable)) := []
  functions : List (String × Command) := []
  aliases : Aliases := []
  /-- The letters of the options that are on. -/
  options : List Char := []
  /-- What is run when a signal comes; an empty script ignores it. -/
  traps : List (Nat × Bytes) := []
  /-- The number of this process, and that of the one which the script calls its own. -/
  process : Nat
  script : Nat
  parent : Nat
  background : Option Nat := none
  loops : Nat := 0
  inFunction : Bool := false
  status : Nat := 0
  /-- The status of the last script in a word of the command that runs. -/
  wordStatus : Nat := 0
  mask : Nat := 18
  optionPlace : OptionPlace := {}

/-- The background processes of a process, each with what it remembers. -/
structure Job where
  process : Nat
  memory : Memory
  work : Work

/-- The state of a shell. -/
structure State where
  world : World
  memory : Memory
  jobs : List Job := []

/-- A step of a script. What it has done stays done when it is left. -/
abbrev InShell := ExceptT Interruption (StateM State)

def memory : InShell Memory := return (← get).memory

/-- Changes the memory of the process. -/
def remember (f : Memory → Memory) : InShell Unit :=
  modify fun s => { s with memory := f s.memory }

/-- Ends a command with a status. -/
def finish (status : Nat) : InShell Unit :=
  remember fun m => { m with status }

/-- Whether the option of a letter is on. -/
def Memory.isOn (m : Memory) (letter : Char) : Bool :=
  m.options.contains letter

/-! ## Variables -/

namespace Memory

def find? (m : Memory) (name : String) : Option Variable :=
  m.vars.lookup name

def value? (m : Memory) (name : String) : Option Bytes :=
  (m.find? name).bind (·.value)

/-- The memory with another variable in the place of one. -/
def setVariable (m : Memory) (name : String) (v : Variable) : Memory :=
  { m with vars := (name, v) :: m.vars.filter fun entry => entry.1 != name }

/-- The memory without a variable. -/
def eraseVariable (m : Memory) (name : String) : Memory :=
  { m with vars := m.vars.filter fun entry => entry.1 != name }

def environment (m : Memory) : Environment :=
  ⟨m.vars.filterMap fun (name, v) =>
    if v.exported then v.value.map fun value => (name, decodeLossy value) else none⟩

/-- The bytes that separate fields. -/
def separators (m : Memory) : Bytes :=
  (m.value? "IFS").getD [32, 9, 10]

end Memory

end LineQuery.Shell
