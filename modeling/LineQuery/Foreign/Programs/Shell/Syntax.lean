/-!
# Shell scripts

Words and commands of the script language of the command interpreter.
-/

namespace LineQuery.Shell

/-! ## Words -/

/-- What is done to the value of a variable in braces. With `orEmpty` an empty value counts
as none. -/
inductive Modifier where
  /-- Takes a text in the place of no value. -/
  | fallback (orEmpty : Bool)
  /-- As `fallback`, and gives the text to the variable. -/
  | assign (orEmpty : Bool)
  /-- Takes a text in the place of a value. -/
  | instead (orEmpty : Bool)
  /-- Ends the script if there is no value. -/
  | require (orEmpty : Bool)
  /-- Drops what a pattern stands for at the front. -/
  | dropFront (longest : Bool)
  /-- Drops what a pattern stands for at the end. -/
  | dropEnd (longest : Bool)
deriving DecidableEq, Repr

/-- What a script in a word stands between. -/
inductive Enclosure where
  /-- Brackets, the first of which is in a given line. -/
  | brackets (line : Nat)
  /-- Backquotes. The lines between them have numbers of their own. -/
  | backquotes
deriving DecidableEq, Repr

/-- A part of a word. What is quoted stands for itself: it is neither split nor a pattern. -/
inductive WordPart where
  | literal (text : String) (quoted : Bool)
  | variable (name : String) (quoted : Bool)
  | length (name : String)
  | modified (name : String) (how : Modifier) (word : List WordPart) (quoted : Bool)
  /-- The output of a script. -/
  | output (within : Enclosure) (script : String) (quoted : Bool)
  | arithmetic (expr : List WordPart)
  /-- What stands in braces and is no variable. -/
  | malformed
deriving Repr

abbrev Word := List WordPart

namespace WordPart

/-- The text of a part that is not replaced. -/
def text? : WordPart → Option String
  | literal text _ => some text
  | _ => none

/-- The text of a part that is neither replaced nor quoted. -/
def plainText? : WordPart → Option String
  | literal text false => some text
  | _ => none

def isQuoted : WordPart → Bool
  | literal _ quoted => quoted
  | _ => false

end WordPart

mutual

/-- The scripts that stand in a part of a word. -/
def WordPart.scripts : WordPart → List (Enclosure × String)
  | .output within script _ => [(within, script)]
  | .modified _ _ word _ => scriptsIn word
  | .arithmetic expr => scriptsIn expr
  | _ => []

/-- The scripts that stand in a word. -/
def scriptsIn : List WordPart → List (Enclosure × String)
  | [] => []
  | part :: parts => part.scripts ++ scriptsIn parts

end

/-- The text of a word without quotes and without parts that are replaced. -/
def plainText? (w : Word) : Option String :=
  (w.mapM WordPart.plainText?).map String.join

/-! ## Redirections -/

/-- How a redirection opens a file. -/
inductive FileMode where
  | input
  | output
  /-- As `output`, even where files are protected. -/
  | replace
  | append
  /-- For reading and writing. -/
  | update
deriving DecidableEq, Repr

/-- What a descriptor is redirected to. -/
inductive RedirectTarget where
  | file (mode : FileMode) (name : Word)
  /-- Another descriptor, or nothing. -/
  | descriptor (n : Option Nat)
  /-- A descriptor that only the value of a word tells. -/
  | descriptorNamed (name : Word)
  /-- A text. -/
  | text (body : Word)
deriving Repr

/-- A redirection of a descriptor. -/
structure Redirection where
  descriptor : Nat
  target : RedirectTarget
deriving Repr

/-! ## Commands -/

/-- Commands. Those that can fail on their own know the line that they start in. -/
inductive Command where
  | simple (line : Nat) (assignments : List (String × Word)) (words : List Word)
      (redirections : List Redirection)
  | redirect (line : Nat) (body : Command) (redirections : List Redirection)
  | pipe (left right : Command)
  | negate (body : Command)
  | both (left right : Command)
  | either (left right : Command)
  | sequence (left right : Command)
  | background (body : Command)
  | subshell (line : Nat) (body : Command) (redirections : List Redirection)
  | choose (cond yes no : Command)
  /-- Runs the first of several commands with a pattern that stands for the subject. -/
  | branch (line : Nat) (subject : Word) (branches : List (List Word × Command))
  /-- Gives a name to a command. -/
  | define (name : String) (body : Command)
  /-- Repeats a body as long as a condition succeeds, or until it does. -/
  | loop (untilSuccess : Bool) (cond body : Command)
  | forEach (line : Nat) (name : String) (words : List Word) (body : Command)
  /-- Does nothing and succeeds. -/
  | skip
deriving Repr

/-- Why a script cannot be read on, and the line in which that shows. -/
structure SyntaxError where
  line : Nat
  message : String
deriving DecidableEq, Repr

/-- Names for the beginnings of commands, each with the text that takes its place. -/
abbrev Aliases := List (String × String)

/-! ## Texts between quotes -/

/-- A text between quotes, of `count` pieces at most, as it can be written in a script. -/
def quotePieces : (count : Nat) → List Char → List Char
  | 0, _ => []
  | count + 1, cs =>
    let plain := cs.takeWhile (· ≠ '\'')
    let rest := cs.drop plain.length
    let quotes := rest.takeWhile (· = '\'')
    let left := rest.drop quotes.length
    let quoted := if quotes.isEmpty then [] else '"' :: quotes ++ ['"']
    '\'' :: plain ++ '\'' :: quoted ++ (if left.isEmpty then [] else quotePieces count left)

/-- A text as it can be written in a script. -/
def quoteText (text : String) : String :=
  String.ofList (quotePieces (text.length + 1) text.toList)

/-! ## Characters of names -/

def isNameStart (c : Char) : Bool :=
  ('a' ≤ c && c ≤ 'z') || ('A' ≤ c && c ≤ 'Z') || c == '_'

def isNamePart (c : Char) : Bool :=
  isNameStart c || ('0' ≤ c && c ≤ '9')

def isName (text : String) : Bool :=
  match text.toList with
  | [] => false
  | c :: cs => isNameStart c && cs.all isNamePart

end LineQuery.Shell
