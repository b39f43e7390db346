import LineQuery.Foreign.Programs.Shell.Variables

/-!
# Options of a shell

Options have names, and most of them letters. A script turns them on and off, and what calls the
shell does so too.
-/

namespace LineQuery.Shell

open LineQuery.Text (Bytes encodeUtf8 decodeLossy)

/-! ## Names and letters -/

/-- The options by name, with their letters. -/
def optionTable : List (String × Option Char) :=
  [("errexit", some 'e'), ("noglob", some 'f'), ("ignoreeof", some 'I'), ("interactive", some 'i'),
    ("monitor", some 'm'), ("noexec", some 'n'), ("stdin", some 's'), ("xtrace", some 'x'),
    ("verbose", some 'v'), ("vi", some 'V'), ("emacs", some 'E'), ("noclobber", some 'C'),
    ("allexport", some 'a'), ("notify", some 'b'), ("nounset", some 'u'), ("privileged", some 'p'),
    ("nolog", none), ("debug", none)]

/-- The letters of options, in the order in which they are shown. -/
def optionLetters : List Char :=
  optionTable.filterMap (·.2)

/-- Whether of two letters only one can be on: each stands for a way to edit lines. -/
def excludes (a b : Char) : Bool :=
  (a = 'V' && b = 'E') || (a = 'E' && b = 'V')

/-- Letters with one of them turned on or off. -/
def switchLetter (letters : List Char) (letter : Char) (on : Bool) : List Char :=
  optionLetters.filter fun c =>
    if c = letter then on else letters.contains c && !(on && excludes letter c)

/-- The options as they are shown: a table, or commands that turn them on and off. -/
def optionsText (letters : List Char) (asTable : Bool) : String :=
  let isOn := fun (letter : Option Char) => letter.any letters.contains
  if asTable then
    "Current option settings\n" ++
      String.join (optionTable.map fun (name, letter) =>
        name ++ String.ofList (List.replicate (16 - name.length) ' ') ++
          (if isOn letter then "on\n" else "off\n"))
  else
    String.join (optionTable.map fun (name, letter) =>
      "set " ++ (if isOn letter then "-o " else "+o ") ++ name ++ "\n")

/-- Letters of options, without that of watching jobs, which takes a terminal. -/
def withoutMonitor (letters : List Char) : InShell (List Char) := do
  if letters.contains 'm' then complain "can't access tty; job control turned off"
  return switchLetter letters 'm' false

/-! ## Arguments -/

/-- What arguments that turn options on and off come to. -/
structure OptionArgs where
  letters : List Char
  /-- Whether a script is the first argument left. -/
  hasScript : Bool := false
  /-- Whether the arguments left are parameters even where there are none. -/
  ended : Bool := false
  /-- What is to be shown of the options, as a table or as commands. -/
  shown : List Bool := []
  args : List String
deriving DecidableEq, Repr

/-- The options after those of a cluster of letters; `callable` says that the letters are those of
a call of the shell. The first of the arguments may name an option. -/
def OptionArgs.addLetters (callable on : Bool) (o : OptionArgs) :
    List Char → Except String OptionArgs
  | [] => .ok o
  | c :: cs =>
    if c = 'c' && callable && on then { o with hasScript := true }.addLetters callable on cs
    else if c = 'l' && callable then o.addLetters callable on cs
    else if c = 'o' then
      match o.args with
      | [] =>
        if callable then .error ("Illegal option -" ++ "o")
        else { o with shown := o.shown ++ [on] }.addLetters callable on cs
      | name :: args =>
        match optionTable.lookup name with
        | some letter =>
          let letters := (letter.map fun l => switchLetter o.letters l on).getD o.letters
          { o with letters, args }.addLetters callable on cs
        | none => .error ("Illegal option -o " ++ name)
    else if optionLetters.contains c then
      { o with letters := switchLetter o.letters c on }.addLetters callable on cs
    else .error ("Illegal option -" ++ String.singleton c)

/-- The options that the first arguments turn on and off, `count` of them at most. -/
def OptionArgs.read (callable : Bool) (o : OptionArgs) : (count : Nat) → Except String OptionArgs
  | 0 => .ok o
  | count + 1 =>
    match o.args with
    | [] => .ok o
    | arg :: args =>
      let o' := { o with args }
      match arg.toList with
      | ['-', '-'] => .ok { o' with ended := true }
      | ['-'] =>
        let letters := switchLetter (switchLetter o.letters 'x' false) 'v' false
        .ok { o' with letters := if callable then o.letters else letters, ended := !args.isEmpty }
      | '-' :: cs => (o'.addLetters callable true cs).bind fun o => o.read callable count
      | '+' :: cs => (o'.addLetters callable false cs).bind fun o => o.read callable count
      | _ => .ok o

end LineQuery.Shell
