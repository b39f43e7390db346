import LineQuery.Foreign.Programs.FileTools
import LineQuery.Foreign.Programs.Translate

/-!
# Tools

The programs that stand on every system besides the command interpreter, by their names.
-/

namespace LineQuery.Programs

open LineQuery.Text (Bytes encodeUtf8)

/-! ## Programs without files -/

def echoArguments (args : List String) : Program :=
  match args with
  | "-n" :: args => .saying (" ".intercalate args) 0
  | args => .saying (" ".intercalate args ++ "\n") 0

/-- How many lines the program writes that never stops. What reads them has long stopped
then. -/
def endlessLines : Nat := 20000

def repeatLine (args : List String) : Program :=
  let line := encodeUtf8 ((if args.isEmpty then "y" else " ".intercalate args) ++ "\n")
  fun s _ => ⟨some 0, [(.out, (List.replicate endlessLines line).flatten)], none, s.disk⟩

/-- The program that writes the integers between two, with steps between them. -/
def countUp (args : List String) : Program :=
  let known : SwitchSet :=
    { plain := "w", valued := "s", words := [("separator", 's'), ("equal-width", 'w')] }
  let (switches, numbers) := args.span fun arg =>
    arg.startsWith "-" && !((arg.toList.drop 1).head?.any Text.isDigit)
  let taken := if switches.getLast? = some "-s" then 1 else 0
  known.program 1 (switches ++ numbers.take taken) fun o =>
    let write := fun (first step last : Int) =>
      let count := if step = 0 then 0 else ((last - first) / step + 1).toNat
      let texts := (List.range count).map fun (i : Nat) => Text.intText (first + step * (i : Int))
      let width := (texts.map String.length).foldl max 0
      let texts := if o.has 'w' then texts.map fun t =>
        String.ofList (List.replicate (width - t.length) '0') ++ t else texts
      let separator := (o.value? 's').getD "\n"
      Program.saying (if texts.isEmpty then "" else separator.intercalate texts ++ "\n") 0
    match (numbers.drop taken).map fun text => Text.readInt? text.toList with
    | [some last] => write 1 1 last
    | [some first, some last] => write first 1 last
    | [some first, some step, some last] =>
      if step = 0 then .misused "invalid Zero increment value: '0'" 1 else write first step last
    | [] => .misused "missing operand" 1
    | _ => .misused "invalid floating point argument" 1

def tellFolder : Program := fun s input =>
  Program.saying ("/" ++ "/".intercalate s.folder ++ "\n") 0 s input

/-- The program that writes the variables that it is given, or the values of some. -/
def writeEnvironment (args : List String) : Program := fun s input =>
  match args with
  | [] =>
    let lines := s.env.vars.map fun (n, v) => n ++ "=" ++ v ++ "\n"
    Program.saying (String.join lines) 0 s input
  | names =>
    let values := names.filterMap fun name => s.env.vars.lookup name
    Program.saying (String.join (values.map (· ++ "\n")))
      (if values.length = names.length then 0 else 1) s input

/-! ## All of them -/

def tools : List (String × (List String → Program)) :=
  [("basename", lastNameOf), ("cat", copy), ("cp", transferFiles false), ("cut", cutColumns),
    ("dirname", folderOf), ("echo", echoArguments), ("false", fun _ => .saying "" 1),
    ("head", firstLines), ("ls", listFiles), ("mkdir", makeFolders), ("mv", transferFiles true),
    ("printenv", writeEnvironment), ("pwd", fun _ => tellFolder), ("rev", reverseCharacters),
    ("rm", removeFiles), ("rmdir", removeFolders), ("seq", countUp),
    ("sleep", fun _ => .saying "" 0), ("sort", sortLines), ("sync", fun _ => .saying "" 0),
    ("tac", reverseLines), ("tail", lastLines), ("tee", teeInput), ("touch", touchFiles),
    ("tr", translate), ("true", fun _ => .saying "" 0),
    ("uniq", dropRepeats), ("wc", countAll), ("yes", repeatLine)]

/-- The tool of a name with its arguments. -/
def tool? (name : String) (args : List String) : Option Program :=
  (tools.lookup name).map fun make => make args

def programNames : List String :=
  ["dash", "env", "sh"] ++ tools.map (·.1)

end LineQuery.Programs
