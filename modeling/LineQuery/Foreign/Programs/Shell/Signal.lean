import LineQuery.Text.Decimal

/-!
# Signals

A signal has a number and a name. What it does to a process that does not catch it is to end
it, for all but a few of them. A shell says of which signal a command has died.
-/

namespace LineQuery.Shell

def signalTable : List (Nat × String × String) :=
  [(1, "HUP", "Hangup"), (2, "INT", "Interrupt"), (3, "QUIT", "Quit"),
    (4, "ILL", "Illegal instruction"), (5, "TRAP", "Trace/breakpoint trap"), (6, "ABRT", "Aborted"),
    (7, "BUS", "Bus error"), (8, "FPE", "Floating point exception"), (9, "KILL", "Killed"),
    (10, "USR1", "User defined signal 1"), (11, "SEGV", "Segmentation fault"),
    (12, "USR2", "User defined signal 2"), (13, "PIPE", "Broken pipe"), (14, "ALRM", "Alarm clock"),
    (15, "TERM", "Terminated"), (16, "STKFLT", "Stack fault"), (17, "CHLD", "Child exited"),
    (18, "CONT", "Continued"), (19, "STOP", "Stopped (signal)"), (20, "TSTP", "Stopped"),
    (21, "TTIN", "Stopped (tty input)"), (22, "TTOU", "Stopped (tty output)"),
    (23, "URG", "Urgent I/O condition"), (24, "XCPU", "CPU time limit exceeded"),
    (25, "XFSZ", "File size limit exceeded"), (26, "VTALRM", "Virtual timer expired"),
    (27, "PROF", "Profiling timer expired"), (28, "WINCH", "Window changed"),
    (29, "IO", "I/O possible"), (30, "PWR", "Power failure"), (31, "SYS", "Bad system call")]

def lastSignal : Nat := 64

def signalName (n : Nat) : String :=
  if n = 0 then "EXIT" else ((signalTable.lookup n).map (·.1)).getD (Text.natText n)

/-- The signal of a name in capital or small letters, or of a number. -/
def signalOf? (text : String) : Option Nat :=
  match Text.readNat? text.toList with
  | some n => if n ≤ lastSignal then some n else none
  | none =>
    let name := text.map Char.toUpper
    if name = "EXIT" then some 0 else (signalTable.find? fun entry => entry.2.1 = name).map (·.1)

/-- What is said of a process that a signal has ended; nothing where that is usual. -/
def deathNotice? (n : Nat) : Option String :=
  if n = 2 ∨ n = 13 then none else (signalTable.lookup n).map (·.2)

/-- Whether a signal ends a process that does not catch it. -/
def endsProcess (n : Nat) : Bool :=
  n ≠ 0 && !([17, 18, 19, 20, 21, 22, 23, 28].contains n)

/-- Whether a signal can be caught. -/
def canCatch (n : Nat) : Bool :=
  n ≠ 9 && n ≠ 19

end LineQuery.Shell
