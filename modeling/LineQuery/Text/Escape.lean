/-!
# Escapes

A backslash and a letter stand for a character that a line or a column cannot
hold. Writing escapes the backslash, tab, line feed and carriage return; reading
knows the quotes as well, and drops an escape it does not know.
-/

namespace LineQuery.Text

/-- The character that a backslash before `c` stands for. -/
def unescape? : Char → Option Char
  | 't' => some '\t'
  | 'n' => some '\n'
  | 'r' => some '\r'
  | '\'' => some '\''
  | '"' => some '"'
  | '\\' => some '\\'
  | _ => none

/-- `cs` with its escapes read. An unknown escape and a backslash at the end stand for
nothing. -/
def decodeEscapes : List Char → List Char
  | [] => []
  | '\\' :: c :: cs => (unescape? c).toList ++ decodeEscapes cs
  | c :: cs => if c = '\\' then decodeEscapes cs else c :: decodeEscapes cs

/-- How `c` is written. -/
def escapeChar : Char → List Char
  | '\\' => ['\\', '\\']
  | '\t' => ['\\', 't']
  | '\n' => ['\\', 'n']
  | '\r' => ['\\', 'r']
  | c => [c]

/-- `cs` written without tabs and line ends. -/
def encodeEscapes (cs : List Char) : List Char :=
  cs.flatMap escapeChar

/-- `s` with its escapes read. -/
def unescape (s : String) : String :=
  String.ofList (decodeEscapes s.toList)

/-- `s` with its tabs, line ends and backslashes escaped. -/
def escape (s : String) : String :=
  String.ofList (encodeEscapes s.toList)

end LineQuery.Text
