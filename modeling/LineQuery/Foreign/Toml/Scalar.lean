import LineQuery.Digest.Hex
import LineQuery.Text.Decimal

/-!
# TOML strings and keys

Readers for what a TOML document is made of inside its lines. Each takes what it reads off
the front of the characters and leaves the rest.
-/

namespace LineQuery.Toml

/-- Reads something off the front of the characters, and leaves the rest. -/
abbrev Reader := StateT (List Char) Option

/-! ## Blanks, comments and line ends -/

/-- Whether `c` is a blank inside a line. -/
def isGap (c : Char) : Bool :=
  c == ' ' || c == '\t'

/-- Whether `c` may stand in a comment. -/
def isVisible (c : Char) : Bool :=
  c == '\t' || (' ' ≤ c && c != '\x7f')

def skipGap : Reader Unit := fun cs =>
  some ((), cs.dropWhile isGap)

/-- Passes over the end of a line; the end of the document is one. -/
def skipLineEnd : Reader Unit
  | [] => some ((), [])
  | '\n' :: cs => some ((), cs)
  | '\r' :: '\n' :: cs => some ((), cs)
  | _ => none

/-- Passes over blanks, a comment and the end of the line. -/
def skipTrailing : Reader Unit := do
  skipGap
  modify fun cs =>
    match cs with
    | '#' :: rest => rest.dropWhile isVisible
    | _ => cs
  skipLineEnd

/-- What is left behind blanks, comments and line ends. -/
def dropFiller (inComment : Bool) : List Char → List Char
  | [] => []
  | '\r' :: '\n' :: cs => dropFiller false cs
  | c :: cs =>
    if c = '\n' then dropFiller false cs
    else if inComment then if isVisible c then dropFiller true cs else c :: cs
    else if isGap c then dropFiller false cs
    else if c = '#' then dropFiller true cs
    else c :: cs

/-- Passes over blanks, comments and line ends. -/
def skipFiller : Reader Unit :=
  modify (dropFiller false)

/-- Passes over one given character. -/
def skipChar (c : Char) : Reader Unit
  | d :: cs => if c = d then some ((), cs) else none
  | [] => none

def peek : Reader (Option Char) := fun cs => some (cs.head?, cs)

/-! ## Strings -/

/-- The character that a backslash before `c` stands for. -/
def shortEscape? : Char → Option Char
  | 'b' => some '\x08'
  | 't' => some '\t'
  | 'n' => some '\n'
  | 'f' => some '\x0c'
  | 'r' => some '\r'
  | '"' => some '"'
  | '\\' => some '\\'
  | _ => none

/-- The character whose number has the given hexadecimal digits. -/
def numbered? (digits : List Char) : Option Char := do
  let n := (← digits.mapM Digest.hexValue?).foldl (fun n d => 16 * n + d) 0
  if n.isValidChar then some (Char.ofNat n) else none

/-- `text` with `c` before it. -/
def prepend (c : Char) (x : Option (List Char × List Char)) : Option (List Char × List Char) :=
  x.map fun (text, rest) => (c :: text, rest)

/-- The text of a string up to its closing quote, with escapes read. -/
def quotedText : List Char → Option (List Char × List Char)
  | [] => none
  | '"' :: cs => some ([], cs)
  | '\\' :: 'u' :: a :: b :: c :: d :: cs => do
    prepend (← numbered? [a, b, c, d]) (quotedText cs)
  | '\\' :: 'U' :: a :: b :: c :: d :: e :: f :: g :: h :: cs => do
    prepend (← numbered? [a, b, c, d, e, f, g, h]) (quotedText cs)
  | '\\' :: c :: cs => do prepend (← shortEscape? c) (quotedText cs)
  | c :: cs => if isVisible c ∧ c ≠ '\\' then prepend c (quotedText cs) else none

def endsLine (cs : List Char) : Bool :=
  match cs.dropWhile isGap with
  | '\n' :: _ => true
  | '\r' :: '\n' :: _ => true
  | _ => false

/-- The text of a string of several lines up to its three closing quotes. Line ends are
written as line feeds; behind a backslash at the end of a line, blanks and line ends are
left out (`skipping`). -/
def multiQuotedText (skipping : Bool) : List Char → Option (List Char × List Char)
  | [] => none
  | '\r' :: '\n' :: cs =>
    if skipping then multiQuotedText true cs else prepend '\n' (multiQuotedText false cs)
  | '"' :: '"' :: '"' :: '"' :: '"' :: cs => some (['"', '"'], cs)
  | '"' :: '"' :: '"' :: '"' :: cs => some (['"'], cs)
  | '"' :: '"' :: '"' :: cs => some ([], cs)
  | '\\' :: 'u' :: a :: b :: c :: d :: cs => do
    prepend (← numbered? [a, b, c, d]) (multiQuotedText false cs)
  | '\\' :: 'U' :: a :: b :: c :: d :: e :: f :: g :: h :: cs => do
    prepend (← numbered? [a, b, c, d, e, f, g, h]) (multiQuotedText false cs)
  | '\\' :: c :: cs =>
    if endsLine (c :: cs) then multiQuotedText true (c :: cs)
    else do prepend (← shortEscape? c) (multiQuotedText false cs)
  | c :: cs =>
    if skipping ∧ (isGap c ∨ c = '\n') then multiQuotedText true cs
    else if (isVisible c ∨ c = '\n') ∧ c ≠ '\\' then prepend c (multiQuotedText false cs)
    else none

/-- The text of a literal string up to its closing quote. -/
def literalText : List Char → Option (List Char × List Char)
  | [] => none
  | '\'' :: cs => some ([], cs)
  | c :: cs => if isVisible c then prepend c (literalText cs) else none

/-- The text of a literal string of several lines up to its three closing quotes. -/
def multiLiteralText : List Char → Option (List Char × List Char)
  | [] => none
  | '\r' :: '\n' :: cs => prepend '\n' (multiLiteralText cs)
  | '\'' :: '\'' :: '\'' :: '\'' :: '\'' :: cs => some (['\'', '\''], cs)
  | '\'' :: '\'' :: '\'' :: '\'' :: cs => some (['\''], cs)
  | '\'' :: '\'' :: '\'' :: cs => some ([], cs)
  | c :: cs => if isVisible c ∨ c = '\n' then prepend c (multiLiteralText cs) else none

/-- What is left behind a line end directly after the opening quotes. -/
def dropFirstLineEnd : List Char → List Char
  | '\n' :: cs => cs
  | '\r' :: '\n' :: cs => cs
  | cs => cs

/-- Reads a string of one line. -/
def readLineString : Reader String := fun cs =>
  match cs with
  | '"' :: cs => (quotedText cs).map fun (text, rest) => (String.ofList text, rest)
  | '\'' :: cs => (literalText cs).map fun (text, rest) => (String.ofList text, rest)
  | _ => none

def readString : Reader String := fun cs =>
  match cs with
  | '"' :: '"' :: '"' :: cs =>
    (multiQuotedText false (dropFirstLineEnd cs)).map fun (text, rest) => (String.ofList text, rest)
  | '\'' :: '\'' :: '\'' :: cs =>
    (multiLiteralText (dropFirstLineEnd cs)).map fun (text, rest) => (String.ofList text, rest)
  | cs => readLineString cs

/-! ## Truth values -/

def readBoolean : Reader Bool
  | 't' :: 'r' :: 'u' :: 'e' :: cs => some (true, cs)
  | 'f' :: 'a' :: 'l' :: 's' :: 'e' :: cs => some (false, cs)
  | _ => none

/-! ## Keys -/

def isBare (c : Char) : Bool :=
  ('a' ≤ c && c ≤ 'z') || ('A' ≤ c && c ≤ 'Z') || Text.isDigit c || c == '_' || c == '-'

/-- Reads one part of a key. -/
def readKeyPart : Reader String := do
  match ← peek with
  | some '"' | some '\'' => readLineString
  | _ =>
    let cs ← get
    match cs.takeWhile isBare with
    | [] => failure
    | name => do
      set (cs.dropWhile isBare)
      return String.ofList name

/-- Reads the parts of a key, `parts` at most, with points between them. -/
def readKeyParts : (parts : Nat) → Reader (List String)
  | 0 => failure
  | parts + 1 => do
    skipGap
    let name ← readKeyPart
    skipGap
    match ← get with
    | '.' :: cs => do
      set cs
      return name :: (← readKeyParts parts)
    | _ => return [name]

/-- How many keys, arrays and tables between braces may stand within one another, the last of
them not counted. -/
def depthLimit : Nat := 80

def readKey : Reader (List String) := do
  let key ← readKeyParts (← get).length
  if key.length < depthLimit then return key else failure

end LineQuery.Toml
