import LineQuery.Foreign.Programs.Shell.Run
import LineQuery.Pool.Command

/-!
# Finding programs

The programs that a worker may run, and why another name cannot be run. A name with a slash is that
of a program itself; any other is looked for in the folders that a variable lists.
-/

namespace LineQuery.Programs

open LineQuery.Files (Disk DiskError Path)
open LineQuery.Pool (Command)

/-- The program that a name stands for, with its arguments. -/
def named? (name : String) (args : List String) : Option Program :=
  match name with
  | "sh" | "dash" => some (Shell.shell args)
  | "env" => some (Shell.changingVariables args)
  | name => tool? name args

/-- Why a program cannot be started. -/
inductive StartError where
  | zeroByte
  | system (cause : DiskError)
deriving DecidableEq, Repr

def StartError.message : StartError → String
  | zeroByte => "nul byte found in provided data"
  | system cause => cause.message

/-- The name of the program at a written path. -/
def programAt (d : Disk) (folder : Path) (text : String) : Except DiskError String := do
  match (← d.locate folder text).2 with
  | .program name => return name
  | _ => throw .notPermitted

/-- The name of the program at the first of some written paths at which one stands. A failure other
than that nothing is there counts, but does not end the search. -/
def firstProgram (d : Disk) (folder : Path) (failure : DiskError) :
    List String → Except DiskError String
  | [] => .error failure
  | text :: texts =>
    match programAt d folder text with
    | .ok name => .ok name
    | .error e =>
      let isMissing := e = .notFound || e = .notAFolder
      firstProgram d folder (if isMissing then failure else e) texts

/-- The name of the program that a command names somewhere. -/
def programFor (d : Disk) (folder : Path) (env : Environment) (program : String) :
    Except DiskError String :=
  if program.toList.contains '/' then programAt d folder program
  else if Disk.longestName < program.utf8ByteSize then .error .nameTooLong
  else
    let folders := (env.vars.lookup "PATH").getD Shell.defaultFolders
    firstProgram d folder .notFound (Shell.candidates folders program)

/-- The program for a command, or why there is none. -/
def find (d : Disk) (folder : Path) (env : Environment) (c : Command) :
    Except StartError Program :=
  if (c.program :: c.args).any fun text => text.toList.contains '\x00' then .error .zeroByte
  else
    match programFor d folder env c.program with
    | .error e => .error (.system e)
    | .ok name =>
      match named? name c.args with
      | some p => .ok p
      | none => .error (.system .notFound)

end LineQuery.Programs
