import LineQuery.Foreign.Programs.Shell.Syntax

/-!
# Operators of shell scripts

What stands between the words of a script: operators between commands, and the marks that start
redirections.
-/

namespace LineQuery.Shell

/-- The operators between commands. -/
inductive Operator where
  | semicolon
  | doubleSemicolon
  | background
  | both
  | either
  | pipe
  | leftParen
  | rightParen
deriving DecidableEq, Repr

/-- The marks that start redirections. -/
inductive RedirectMark where
  | less
  | greater
  | greaterPipe
  | doubleGreater
  | lessGreater
  | lessAnd
  | greaterAnd
  /-- Announces a text, whose lines may start with tabs that are dropped. -/
  | here (dropsTabs : Bool)
deriving DecidableEq, Repr

/-- What a token is. -/
inductive TokenKind where
  | word (w : Word)
  | redirection (descriptor : Option Nat) (mark : RedirectMark)
  | operator (o : Operator)
  | newline
  | ending
  /-- Nothing can be read here. -/
  | failure (message : String)
deriving Repr

/-- The operator at the front of `cs`, and how many characters it has. -/
def operator? (cs : List Char) : Option (Operator × Nat) :=
  match cs with
  | ';' :: ';' :: _ => some (.doubleSemicolon, 2)
  | ';' :: _ => some (.semicolon, 1)
  | '&' :: '&' :: _ => some (.both, 2)
  | '&' :: _ => some (.background, 1)
  | '|' :: '|' :: _ => some (.either, 2)
  | '|' :: _ => some (.pipe, 1)
  | '(' :: _ => some (.leftParen, 1)
  | ')' :: _ => some (.rightParen, 1)
  | _ => none

/-- The mark at the front of `cs`, and how many characters it has. -/
def redirectMark? (cs : List Char) : Option (RedirectMark × Nat) :=
  match cs with
  | '<' :: '<' :: '-' :: _ => some (.here true, 3)
  | '<' :: '<' :: _ => some (.here false, 2)
  | '<' :: '&' :: _ => some (.lessAnd, 2)
  | '<' :: '>' :: _ => some (.lessGreater, 2)
  | '<' :: _ => some (.less, 1)
  | '>' :: '>' :: _ => some (.doubleGreater, 2)
  | '>' :: '&' :: _ => some (.greaterAnd, 2)
  | '>' :: '|' :: _ => some (.greaterPipe, 2)
  | '>' :: _ => some (.greater, 1)
  | _ => none

end LineQuery.Shell
