import LineQuery.Foreign.Programs.Shell.Scan

/-!
# Tokens of shell scripts

A script is words, operators, redirections and line ends. The text of a redirection stands in
the lines behind the one that it is announced in, up to a line that was announced too; such
texts are kept apart from the tokens, in their order.
-/

namespace LineQuery.Shell

structure Token where
  kind : TokenKind
  line : Nat
  /-- The aliases that the token stems from. -/
  aliases : List String := []
  /-- Whether the token stands behind an alias that ends with a blank, and may be one too. -/
  invited : Bool := false
deriving Repr

/-- Reads the kind of the next token. -/
def readTokenKind : Scan TokenKind := do
  match ← readMark? with
  | some kind => return kind
  | none => return .word (← readWordParts)

/-- Reads the text that has been announced. -/
def readAnnounced (a : Announced) : Scan Word := fun c =>
  let (text, after) := a.split (c.rest.length + 1) c
  let text := String.ofList text
  if a.quoted then .ok ([.literal text true], after)
  else (textParts c.line text).map fun parts => (parts, after)

/-! ## Scripts -/

/-- The tokens of a script, and the texts of its redirections. -/
structure Tokens where
  tokens : List Token
  texts : List Word

/-- Tokens with one more before them. -/
def Tokens.before (t : Token) (ts : Tokens) : Tokens :=
  { ts with tokens := t :: ts.tokens }

/-- The token where a script cannot be read on. -/
def failed (e : SyntaxError) : Token :=
  { kind := .failure e.message, line := e.line }

/-- The tokens of a script of `count` characters at most. `waiting` are the texts that have been
announced, `opened` says whether the next word announces one. -/
def tokensFrom (waiting : List Announced) (opened : Option Bool) : (count : Nat) → Cursor → Tokens
  | 0, c => ⟨[{ kind := .ending, line := c.line }], []⟩
  | count + 1, c =>
    match readTokenKind.run c with
    | .error e => ⟨[failed e], []⟩
    | .ok (kind, c) =>
      let token : Token := { kind, line := c.line }
      match kind, opened with
      | .ending, _ => ⟨[token], []⟩
      | .newline, _ =>
        match (waiting.mapM readAnnounced).run c with
        | .error e => ⟨[failed e], []⟩
        | .ok (texts, c) =>
          let more := tokensFrom [] none count c
          { more with tokens := token :: more.tokens, texts := texts ++ more.texts }
      | .word w, some dropsTabs =>
        (tokensFrom (waiting ++ [Announced.ofWord dropsTabs w]) none count c).before token
      | .redirection _ (.here dropsTabs), _ =>
        (tokensFrom waiting (some dropsTabs) count c).before token
      | _, _ => (tokensFrom waiting none count c).before token

/-- The tokens of a script that starts in a line. -/
def tokensOf (line : Nat) (script : String) : Tokens :=
  tokensFrom [] none (script.length + 1) ⟨script.toList, line⟩

end LineQuery.Shell
