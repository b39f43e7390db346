import LineQuery.Text.Blank

/-!
# Worker commands

The program that workers run, and its arguments, which are written in one string. Blanks
separate arguments. Single quotes take what they hold as it is; between double quotes a
backslash stands before a double quote or a backslash; outside quotes it stands before any
character.
-/

namespace LineQuery.Pool

/-- A program and its arguments. -/
structure Command where
  program : String
  args : List String
deriving DecidableEq, Repr

/-- Why a command cannot be read. -/
inductive CommandError where
  | emptyProgram
  | unterminatedQuote (quote : Char)
  | danglingEscape
deriving DecidableEq, Repr

def CommandError.message : CommandError → String
  | emptyProgram => "worker program must not be empty"
  | unterminatedQuote quote =>
    "unterminated " ++ String.ofList [quote] ++ " quote in worker arguments"
  | danglingEscape => "worker arguments end with a dangling `\\`"

/-- Whether a place in an argument string lies between quotes. -/
inductive Quoting where
  | plain
  | single
  | double
deriving DecidableEq, Repr

/-- An argument, if there is one yet, with more characters at its end; it is held
backwards. -/
def extend (arg : Option (List Char)) (more : List Char) : Option (List Char) :=
  some (more.reverse ++ arg.getD [])

/-- The arguments in `cs`, where `arg` is what has been read of the first of them. -/
def splitArgsFrom : Quoting → (arg : Option (List Char)) → List Char →
    Except CommandError (List (List Char))
  | .plain, arg, [] => .ok (arg.map List.reverse).toList
  | .single, _, [] => .error (.unterminatedQuote '\'')
  | .double, _, [] => .error (.unterminatedQuote '"')
  | .single, arg, c :: cs =>
    if c = '\'' then splitArgsFrom .plain arg cs else splitArgsFrom .single (extend arg [c]) cs
  | .double, arg, '\\' :: c :: cs =>
    splitArgsFrom .double (extend arg (if c = '"' ∨ c = '\\' then [c] else ['\\', c])) cs
  | .double, arg, c :: cs =>
    if c = '"' then splitArgsFrom .plain arg cs
    else if c = '\\' then .error (.unterminatedQuote '"')
    else splitArgsFrom .double (extend arg [c]) cs
  | .plain, arg, '\\' :: c :: cs => splitArgsFrom .plain (extend arg [c]) cs
  | .plain, arg, c :: cs =>
    if Text.isBlank c then
      match arg with
      | some arg => (splitArgsFrom .plain none cs).map (arg.reverse :: ·)
      | none => splitArgsFrom .plain none cs
    else if c = '\'' then splitArgsFrom .single (extend arg []) cs
    else if c = '"' then splitArgsFrom .double (extend arg []) cs
    else if c = '\\' then .error .danglingEscape
    else splitArgsFrom .plain (extend arg [c]) cs

def splitArgs (text : String) : Except CommandError (List String) :=
  (splitArgsFrom .plain none text.toList).map fun args => args.map String.ofList

namespace Command

/-- The command of a program, which must have a name, with the arguments in a string. -/
def parse (program args : String) : Except CommandError Command :=
  if Text.isAllBlank program then .error .emptyProgram
  else (splitArgs args).map fun args => ⟨program, args⟩

def addArg (c : Command) (arg : String) : Command :=
  { c with args := c.args ++ [arg] }

end Command

end LineQuery.Pool
