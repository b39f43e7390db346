import LineQuery.Script.Position

/-!
# Tokens

The words and marks of the query language. A token that is malformed says what is wrong
with it.
-/

namespace LineQuery.Syntax

/-- The reserved words. -/
inductive Keyword where
  | useWord
  | fromWord
  | atWord
  | inWord
  | whereWord
  | letWord
  | skipWord
  | takeWord
  | selectWord
  | trueWord
  | falseWord
deriving DecidableEq, Repr

namespace Keyword

def text : Keyword → String
  | useWord => "use"
  | fromWord => "from"
  | atWord => "at"
  | inWord => "in"
  | whereWord => "where"
  | letWord => "let"
  | skipWord => "skip"
  | takeWord => "take"
  | selectWord => "select"
  | trueWord => "true"
  | falseWord => "false"

def all : List Keyword :=
  [useWord, fromWord, atWord, inWord, whereWord, letWord, skipWord, takeWord, selectWord,
    trueWord, falseWord]

/-- The keyword written as `word`. -/
def ofText? (word : String) : Option Keyword :=
  all.find? fun k => k.text == word

def startsClause : Keyword → Bool
  | fromWord | whereWord | letWord | skipWord | takeWord | selectWord => true
  | _ => false

end Keyword

/-- The marks: brackets, separators and operators. -/
inductive Mark where
  | leftParen
  | rightParen
  | leftBrace
  | rightBrace
  | leftBracket
  | rightBracket
  | comma
  | semicolon
  | assign
  | eqEq
  | notEq
  | lt
  | le
  | gt
  | ge
  | plus
  | minus
  | star
  | slash
  | percent
  | andAnd
  | orOr
  | bang
deriving DecidableEq, Repr

namespace Mark

def text : Mark → String
  | leftParen => "("
  | rightParen => ")"
  | leftBrace => "\x7b"
  | rightBrace => "\x7d"
  | leftBracket => "["
  | rightBracket => "]"
  | comma => ","
  | semicolon => ";"
  | assign => "="
  | eqEq => "=="
  | notEq => "!="
  | lt => "<"
  | le => "<="
  | gt => ">"
  | ge => ">="
  | plus => "+"
  | minus => "-"
  | star => "*"
  | slash => "/"
  | percent => "%"
  | andAnd => "&&"
  | orOr => "||"
  | bang => "!"

/-- The mark of two characters that starts with `c` and goes on with `d`. -/
def ofPair? (c d : Char) : Option Mark :=
  match c, d with
  | '=', '=' => some eqEq
  | '!', '=' => some notEq
  | '<', '=' => some le
  | '>', '=' => some ge
  | '&', '&' => some andAnd
  | '|', '|' => some orOr
  | _, _ => none

/-- The mark that is the character `c`. -/
def ofChar? : Char → Option Mark
  | '(' => some leftParen
  | ')' => some rightParen
  | '{' => some leftBrace
  | '}' => some rightBrace
  | '[' => some leftBracket
  | ']' => some rightBracket
  | ',' => some comma
  | ';' => some semicolon
  | '=' => some assign
  | '<' => some lt
  | '>' => some gt
  | '+' => some plus
  | '-' => some minus
  | '*' => some star
  | '/' => some slash
  | '%' => some percent
  | '!' => some bang
  | _ => none

end Mark

inductive Malformation where
  | invalidNumber (text : String)
  | unterminatedString
  | unexpected (c : Char)
deriving DecidableEq, Repr

def Malformation.message : Malformation → String
  | invalidNumber text => "invalid number `" ++ text ++ "`"
  | unterminatedString => "unterminated string literal"
  | unexpected c =>
    let hint :=
      if c = '&' then "; logical and is `&&`"
      else if c = '|' then "; logical or is `||`"
      else if c = '\'' then "; strings use double quotes"
      else ""
    "unexpected character `" ++ String.ofList [c] ++ "`" ++ hint

/-- The kinds of token. -/
inductive TokenKind where
  | keyword (k : Keyword)
  | ident
  | int
  | str
  | mark (m : Mark)
  | malformed (why : Malformation)
  | eof
deriving DecidableEq, Repr

namespace TokenKind

def describe : TokenKind → String
  | keyword k => "`" ++ k.text ++ "`"
  | ident => "identifier"
  | int => "integer"
  | str => "string"
  | mark m => "`" ++ m.text ++ "`"
  | malformed _ => "invalid token"
  | eof => "end of program"

def startsClause : TokenKind → Bool
  | keyword k => k.startsClause
  | _ => false

def isMalformed : TokenKind → Bool
  | malformed _ => true
  | _ => false

end TokenKind

/-- A token: its kind, its text and where it stands. -/
structure Token where
  kind : TokenKind
  text : String
  span : Span
deriving DecidableEq, Repr

end LineQuery.Syntax
