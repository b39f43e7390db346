import LineQuery.Diagnostic.Basic
import LineQuery.Syntax.Token
import LineQuery.Syntax.Tree

/-!
# Reading tokens

A cursor stands in the tokens of a text. Reading a part of a document moves it forward or
leaves it where it is, and may add findings. What is read comes back with a cursor that
is not behind the one it was read from, which bounds every loop of the parser.
-/

namespace LineQuery.Syntax

/-- A place in a text: the tokens ahead, the span of the token just read, the end of the
text, and the findings so far, the latest first. -/
structure Cursor where
  ahead : List Token
  behind : Span
  stop : Nat
  findings : List Finding
deriving Repr

/-- A part of a document read from `c`. -/
structure Parsed (α : Type) (c : Cursor) where
  value : α
  rest : Cursor
  noLonger : rest.ahead.length ≤ c.ahead.length

namespace Parsed

/-- A value that takes no tokens. -/
def here (value : α) (c : Cursor) : Parsed α c :=
  ⟨value, c, Nat.le_refl _⟩

/-- What was read from `d`, as read from a cursor that is not ahead of `d`. -/
def since {c d : Cursor} (p : Parsed α d) (h : d.ahead.length ≤ c.ahead.length) : Parsed α c :=
  ⟨p.value, p.rest, Nat.le_trans p.noLonger h⟩

def map {c : Cursor} (f : α → β) (p : Parsed α c) : Parsed β c :=
  ⟨f p.value, p.rest, p.noLonger⟩

end Parsed

namespace Cursor

/-- The cursor before the first of `tokens`, the tokens of a text of `stop` bytes. -/
def start (tokens : List Token) (stop : Nat) : Cursor :=
  ⟨tokens, ⟨0, 0⟩, stop, []⟩

def kind (c : Cursor) : TokenKind :=
  match c.ahead with
  | t :: _ => t.kind
  | [] => .eof

def span (c : Cursor) : Span :=
  match c.ahead with
  | t :: _ => t.span
  | [] => ⟨c.stop, c.stop⟩

/-- The cursor behind `t`, with `rest` ahead. -/
def past (c : Cursor) (t : Token) (rest : List Token) : Cursor :=
  { c with ahead := rest, behind := t.span }

/-- The cursor behind the next token. At the end of the text it stays. -/
def advance (c : Cursor) : Cursor :=
  match c.ahead with
  | t :: rest => c.past t rest
  | [] => c

def report (c : Cursor) (code : Code) (message : String) (span : Span) : Cursor :=
  { c with findings := { code, message, span } :: c.findings }

/-- The cursor with the finding that something else was expected. A malformed token has
been reported already. -/
def expected (c : Cursor) (what : String) : Cursor :=
  if c.kind.isMalformed then c
  else c.report .grammar ("expected " ++ what ++ ", found " ++ c.kind.describe) c.span

/-- The cursor behind the next token if that is of kind `k`. -/
def eat (c : Cursor) (k : TokenKind) : Cursor :=
  if c.kind = k then c.advance else c

/-- As `eat`, with a finding if the next token is of another kind. -/
def expect (c : Cursor) (k : TokenKind) : Cursor :=
  if c.kind = k then c.advance else c.expected k.describe

/-- Whether reading on to the next clause stops at a token. -/
def endsRecovery (k : TokenKind) : Bool :=
  k == .mark .rightBrace || k.startsClause

/-- The cursor at the next token for which `stop` holds, or at the end of the text. -/
def skipFrom (c : Cursor) (stop : TokenKind → Bool) : List Token → Cursor
  | [] => { c with ahead := [] }
  | t :: rest =>
    if stop t.kind then { c with ahead := t :: rest } else skipFrom (c.past t rest) stop rest

/-- The cursor at the next token for which `stop` holds, or at the end of the text. -/
def skipTo (c : Cursor) (stop : TokenKind → Bool) : Cursor :=
  c.skipFrom stop c.ahead

/-! ## Lengths -/

/-- No step brings tokens back. -/
theorem length_advance (c : Cursor) : c.advance.ahead.length ≤ c.ahead.length := by
  unfold advance
  split <;> simp_all [past]

@[simp] theorem ahead_report (c : Cursor) (code : Code) (message : String) (span : Span) :
    (c.report code message span).ahead = c.ahead := rfl

@[simp] theorem ahead_past (c : Cursor) (t : Token) (rest : List Token) :
    (c.past t rest).ahead = rest := rfl

@[simp] theorem ahead_expected (c : Cursor) (what : String) :
    (c.expected what).ahead = c.ahead := by
  unfold expected
  split <;> simp

/-- Behind a token fewer tokens are ahead. -/
theorem length_past_lt {c : Cursor} {t : Token} {rest : List Token} (h : c.ahead = t :: rest) :
    (c.past t rest).ahead.length < c.ahead.length := by
  simp [h]

theorem length_past_le {c : Cursor} {t : Token} {rest : List Token} (h : c.ahead = t :: rest) :
    (c.past t rest).ahead.length ≤ c.ahead.length :=
  Nat.le_of_lt (length_past_lt h)

theorem length_eat (c : Cursor) (k : TokenKind) :
    (c.eat k).ahead.length ≤ c.ahead.length := by
  unfold eat
  split
  · exact c.length_advance
  · exact Nat.le_refl _

/-- Whether the token is there or not, no token is added. -/
theorem length_expect (c : Cursor) (k : TokenKind) :
    (c.expect k).ahead.length ≤ c.ahead.length := by
  unfold expect
  split
  · exact c.length_advance
  · simp

theorem length_skipFrom (stop : TokenKind → Bool) (tokens : List Token) (c : Cursor) :
    (c.skipFrom stop tokens).ahead.length ≤ tokens.length := by
  induction tokens generalizing c with
  | nil => simp [skipFrom]
  | cons t rest ih =>
    unfold skipFrom
    split
    · simp
    · exact Nat.le_succ_of_le (ih _)

/-- Recovery only goes forward. -/
theorem length_skipTo (c : Cursor) (stop : TokenKind → Bool) :
    (c.skipTo stop).ahead.length ≤ c.ahead.length :=
  length_skipFrom stop c.ahead c

/-- The name that comes next. A placeholder is taken if there is none. -/
def expectIdent (c : Cursor) : Parsed Ident c :=
  match h : c.ahead with
  | t :: rest =>
    if t.kind = .ident then ⟨⟨t.text, t.span⟩, c.past t rest, length_past_le h⟩
    else ⟨.missing c.span, c.expected "identifier", by simp⟩
  | [] => ⟨.missing c.span, c.expected "identifier", by simp⟩

/-- A name that is there is read. -/
theorem length_expectIdent_lt {c : Cursor} (h : c.kind = .ident) :
    c.expectIdent.rest.ahead.length < c.ahead.length := by
  unfold kind at h
  unfold expectIdent
  split <;> simp_all

end Cursor

end LineQuery.Syntax
