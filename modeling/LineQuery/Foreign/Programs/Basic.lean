import LineQuery.Environment
import LineQuery.Files.System
import LineQuery.Pool.Pass

/-!
# Programs

A program is started somewhere: it finds a disk, a folder that it works in, and an
environment. What it does there is a function of its input. The programs of a pool work on
one disk, each on what those before it have left.

The programs themselves are no part of the tool: the modules of this folder only let it be run
where it would find them. What is shown of a pool holds for workers of any kind.
-/

namespace LineQuery.Programs

open LineQuery.Files (Disk Path)
open LineQuery.Pool (Response Worker)
open LineQuery.Text (Bytes encodeUtf8)

/-- What a program finds where it is started. -/
structure Surroundings where
  /-- The name that it was called by. -/
  name : String
  disk : Disk
  folder : Path
  env : Environment

/-- The streams that a program writes to. -/
inductive Outlet where
  | out
  | err
deriving DecidableEq, Repr

/-- What a program does with an input. -/
structure Conduct where
  /-- How much of the input it reads, unless it reads to the end. -/
  stopsAfter : Option Nat
  /-- What it writes, in this order. -/
  written : List (Outlet × Bytes)
  /-- The exit code, unless a signal ends it. -/
  exitCode : Option Int
  /-- The disk after it. -/
  disk : Disk

/-- A program, as what it does somewhere with each input. -/
abbrev Program := Surroundings → Bytes → Conduct

namespace Conduct

/-- What was written to one stream. -/
def stream (c : Conduct) (outlet : Outlet) : Bytes :=
  c.written.flatMap fun (o, bytes) => if o = outlet then bytes else []

/-- What the two ends of the streams see. -/
def response (c : Conduct) : Response :=
  ⟨c.stopsAfter, c.stream .out, c.stream .err, c.exitCode⟩

end Conduct

namespace Program

/-- The program that reads nothing, writes a text and exits with a code. -/
def saying (text : String) (code : Int) : Program := fun s _ =>
  ⟨some 0, [(.out, encodeUtf8 text)], some code, s.disk⟩

/-- The program that reads nothing, complains and exits with a code. -/
def refusing (message : String) (code : Int) : Program := fun s _ =>
  ⟨some 0, [(.err, encodeUtf8 (s.name ++ ": " ++ message ++ "\n"))], some code, s.disk⟩

/-- The program that reads nothing, complains of its arguments and exits with a code. -/
def misused (message : String) (code : Int) : Program := fun s _ =>
  let hint := "Try '" ++ s.name ++ " --help' for more information.\n"
  ⟨some 0, [(.err, encodeUtf8 (s.name ++ ": " ++ message ++ "\n" ++ hint))], some code, s.disk⟩

/-- The program that reads all of its input and writes what becomes of it. -/
def filtering (f : Bytes → Bytes) : Program := fun s input =>
  ⟨none, [(.out, f input)], some 0, s.disk⟩

/-- The worker that a program is somewhere. -/
def worker (p : Program) (s : Surroundings) : Worker := fun input => (p s input).response

/-- The workers that run a program, one for each of the inputs that will reach them, each on the
disk that the one before has left, and the disk after the last. -/
def workersInTurn (p : Program) (s : Surroundings) : List Bytes → List Worker × Disk
  | [] => ([], s.disk)
  | input :: inputs =>
    let (workers, disk) := workersInTurn p { s with disk := (p s input).disk } inputs
    (p.worker s :: workers, disk)

end Program

end LineQuery.Programs
