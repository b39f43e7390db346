import LineQuery.Diagnostic.Basic
import LineQuery.Syntax.Token
import LineQuery.Text.Decimal
import LineQuery.Text.Utf8

/-!
# From text to tokens

Blanks and comments separate tokens; a comment runs from `#` to the end of its line. At
any other character a token starts, and the character with those behind it decide its kind
and its length. No token goes past the end of a line.
-/

namespace LineQuery.Syntax

/-- The blanks between tokens. -/
def isSpace (c : Char) : Bool :=
  c == ' ' || c == '\t' || c == '\n' || c == '\x0c' || c == '\r'

def isWordStart (c : Char) : Bool :=
  ('a' ≤ c && c ≤ 'z') || ('A' ≤ c && c ≤ 'Z') || c == '_'

/-- The characters that a word goes on with. -/
def isWordChar (c : Char) : Bool :=
  isWordStart c || Text.isDigit c

/-- How many characters a string goes on for behind its opening quote, and whether its
closing quote is among them. A backslash keeps the character behind it from closing the
string, but not the line from ending it. -/
def stringLength : List Char → Nat × Bool
  | [] => (0, false)
  | '\\' :: c :: cs =>
    if c = '\n' then (1, false)
    else ((stringLength cs).1 + 2, (stringLength cs).2)
  | c :: cs =>
    if c = '\n' then (0, false)
    else if c = '"' then (1, true)
    else ((stringLength cs).1 + 1, (stringLength cs).2)

/-- The kind of a token, and how many characters it has after its first. -/
structure Lexeme where
  kind : TokenKind
  more : Nat
deriving DecidableEq, Repr

def wordKind (word : List Char) : TokenKind :=
  match Keyword.ofText? (String.ofList word) with
  | some k => .keyword k
  | none => .ident

/-- The kind of a run of word characters that starts with a digit. -/
def numberKind (run : List Char) : TokenKind :=
  if run.all Text.isDigit then .int else .malformed (.invalidNumber (String.ofList run))

/-- The mark that `c :: cs` starts with; of two, the longer one. -/
def markLexeme? (c : Char) (cs : List Char) : Option Lexeme :=
  match cs.head?.bind (Mark.ofPair? c) with
  | some m => some ⟨.mark m, 1⟩
  | none => (Mark.ofChar? c).map fun m => ⟨.mark m, 0⟩

/-- The token that `c :: cs` starts with, where `c` is neither a blank nor `#`. -/
def lexeme (c : Char) (cs : List Char) : Lexeme :=
  let run := cs.takeWhile isWordChar
  if isWordStart c then ⟨wordKind (c :: run), run.length⟩
  else if Text.isDigit c then ⟨numberKind (c :: run), run.length⟩
  else if c = '"' then
    let (more, closed) := stringLength cs
    ⟨if closed then .str else .malformed .unterminatedString, more⟩
  else (markLexeme? c cs).getD ⟨.malformed (.unexpected c), 0⟩

/-- The tokens of `cs`, which stands at byte `offset`; its first `skip` characters belong to
a token or a comment already read. -/
def scanFrom : Nat → Nat → List Char → List Token
  | _, _, [] => []
  | skip + 1, offset, c :: cs => scanFrom skip (offset + c.utf8Size) cs
  | 0, offset, c :: cs =>
    let next := offset + c.utf8Size
    if isSpace c then scanFrom 0 next cs
    else if c = '#' then scanFrom (cs.takeWhile (· != '\n')).length next cs
    else
      let found := lexeme c cs
      let chars := c :: cs.take found.more
      ⟨found.kind, String.ofList chars, ⟨offset, offset + Text.byteLength chars⟩⟩ ::
        scanFrom found.more next cs

/-- The tokens of a text. -/
def tokens (text : String) : List Token :=
  scanFrom 0 0 text.toList

/-- What is reported about a malformed token. -/
def Token.finding? (t : Token) : Option Finding :=
  match t.kind with
  | .malformed why => some { code := .lexical, message := why.message, span := t.span }
  | _ => none

end LineQuery.Syntax
