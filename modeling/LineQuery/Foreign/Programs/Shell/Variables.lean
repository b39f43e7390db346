import LineQuery.Foreign.Programs.Shell.Arithmetic
import LineQuery.Foreign.Programs.Shell.Streams

/-!
# Variables of shell scripts

Variables have names and may be changed; parameters have numbers or signs and are what the
script was called with, or what the shell knows of itself. A function can hide variables: they
have their former values again when it ends.
-/

namespace LineQuery.Shell

open LineQuery.Text (Bytes encodeUtf8 decodeLossy natText)

/-! ## Values -/

/-- Texts with the first separator of fields between them. -/
def Memory.joined (m : Memory) (texts : List Bytes) : Bytes :=
  (m.separators.take 1).intercalate texts

/-- The value of a variable or a parameter, if it has one. -/
def Memory.lookup? (m : Memory) (name : String) : Option Bytes :=
  match name with
  | "?" => some (encodeUtf8 (natText m.status))
  | "#" => some (encodeUtf8 (natText m.params.length))
  | "@" | "*" => some (m.joined m.params)
  | "0" => some (encodeUtf8 m.name)
  | "$" => some (encodeUtf8 (natText m.script))
  | "!" => m.background.map fun process => encodeUtf8 (natText process)
  | "-" => some (encodeUtf8 (String.ofList m.options.reverse))
  | name =>
    match Text.readNat? name.toList with
    | some n => if n = 0 then some (encodeUtf8 m.name) else m.params[n - 1]?
    | none => m.value? name

/-- The value of a variable or a parameter. Without one, it is empty, or the script ends if that
was asked for. -/
def valueOf (name : String) : InShell Bytes := do
  let m ← memory
  match m.lookup? name with
  | some v => return v
  | none => if m.isOn 'u' then giveUp (name ++ ": parameter not set") else return []

/-! ## Changes -/

/-- The place that a number of an option stands for; that of none is the first. -/
def optionPlaceOf (value : Bytes) : InShell OptionPlace := do
  let text := decodeLossy value
  match Text.readNat? text.toList with
  | some n => return { index := max n 1 }
  | none => badNumber text

def assign (name : String) (value : Bytes) : InShell Unit := do
  let m ← memory
  let v := (m.find? name).getD {}
  if v.fixed then giveUp (name ++ ": is read only")
  else
    let exported := v.exported || m.isOn 'a'
    let place ← if name = "OPTIND" then optionPlaceOf value else pure m.optionPlace
    remember fun m =>
      { m.setVariable name { v with value := some value, exported } with optionPlace := place }

/-- Gives up on a text that is no name of a variable. -/
def requireName (name : String) : InShell Unit := do
  if isName name then return else giveUp (name ++ ": bad variable name")

/-- Gives a value to what should be the name of a variable. -/
def assignNamed (name : String) (value : Bytes) : InShell Unit := do
  requireName name
  assign name value

/-- Marks a variable, which there may not have been yet. -/
def markVariable (name : String) (f : Variable → Variable) : InShell Unit :=
  remember fun m => m.setVariable name (f ((m.find? name).getD {}))

/-- Hides a variable until the function that runs ends. -/
def hide (name : String) : InShell Unit :=
  remember fun m =>
    match m.hidden with
    | [] => m
    | frame :: frames =>
      if (frame.lookup name).isSome then m
      else { m with hidden := ((name, m.find? name) :: frame) :: frames }

/-- The memory after the variables that the last function has hidden are there again. -/
def Memory.unhide (m : Memory) : Memory :=
  match m.hidden with
  | [] => m
  | frame :: frames =>
    let restored := frame.foldl
      (fun m (name, v) =>
        match v with
        | some v => m.setVariable name v
        | none => m.eraseVariable name)
      m
    { restored with hidden := frames }

/-- Runs `body`, after which all variables that it has hidden are there again. -/
def withHidden (body : InShell α) : InShell α := do
  remember fun m => { m with hidden := [] :: m.hidden }
  try body finally remember Memory.unhide

/-! ## Arithmetic -/

/-- The number that is the value of a variable. Without one it is zero, even where that is an
error elsewhere. -/
def numberOf (name : String) : InShell Int64 := do
  let text := decodeLossy (((← memory).lookup? name).getD [])
  match readNumber? text with
  | some n => return n
  | none => badNumber text

/-- Gives up on an expression. -/
def refuseFormula (text : String) : FormulaError → InShell Int64
  | .expected what => giveUp ("arithmetic expression: expecting " ++ what ++ ": \"" ++ text ++ "\"")
  | .divisionByZero => giveUp ("arithmetic expression: division by zero: \"" ++ text ++ "\"")
  | .notANumber text => badNumber text

/-- The value of an expression. -/
def evaluate (text : String) : InShell Int64 := do
  match Formula.ofText text with
  | .error e => refuseFormula text e
  | .ok f =>
    f.eval (refuseFormula text) numberOf fun name n =>
      assign name (encodeUtf8 (Text.intText n.toInt))

end LineQuery.Shell
