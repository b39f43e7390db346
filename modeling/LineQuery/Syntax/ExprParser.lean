import LineQuery.Syntax.Cursor
import LineQuery.Text.Decimal
import LineQuery.Text.Escape

/-!
# Reading expressions

Operators of two operands bind by their level and to the left; the prefix operators bind
tighter than all of them, and indexing tighter still. A missing expression leaves a hole
and is reported; a token that could start a clause or end the query is left for the
clause reader.
-/

namespace LineQuery.Syntax

def binaryOp? : TokenKind → Option BinaryOp
  | .mark .orOr => some .or
  | .mark .andAnd => some .and
  | .mark .eqEq => some .eq
  | .mark .notEq => some .ne
  | .mark .lt => some .lt
  | .mark .le => some .le
  | .mark .gt => some .gt
  | .mark .ge => some .ge
  | .mark .plus => some .add
  | .mark .minus => some .sub
  | .mark .star => some .mul
  | .mark .slash => some .div
  | .mark .percent => some .rem
  | _ => none

def unaryOp? : TokenKind → Option UnaryOp
  | .mark .bang => some .not
  | .mark .minus => some .neg
  | _ => none

/-- The level that no operator of two operands is above. -/
def tightestLevel : Nat := 6

/-- The text between the quotes of a string token. -/
def stringBody (t : Token) : List Char :=
  (t.text.toList.drop 1).dropLast

/-- The integer that a token stands for, or a hole and a finding if it is too large. -/
def intLiteral (t : Token) (c : Cursor) : Expr × Cursor :=
  match Text.readInt64? t.text.toList with
  | some n => (.int n t.span, c)
  | none =>
    (.hole t.span,
      c.report .lexical ("integer literal `" ++ t.text ++ "` is too large") t.span)

/-- Whether a token that is no expression is left in place. -/
def staysForClause (k : TokenKind) : Bool :=
  k.startsClause || k == .mark .rightBrace || k == .eof

/-- An integer that is too large is reported, and nothing is passed for it. -/
theorem ahead_intLiteral (t : Token) (c : Cursor) : (intLiteral t c).2.ahead = c.ahead := by
  unfold intLiteral
  split <;> simp

mutual

/-- An expression whose operators of two operands are all of a level above `above`. -/
def parseExpr (above : Nat) (c : Cursor) : Parsed Expr c :=
  match parseOperand c with
  | ⟨first, rest, h⟩ => (parseOperators above first rest).since h
termination_by 5 * c.ahead.length + 3
decreasing_by all_goals omega

/-- The operators above level `above` that follow `left`, with their right operands. -/
def parseOperators (above : Nat) (left : Expr) (c : Cursor) : Parsed Expr c :=
  match hc : c.ahead with
  | [] => .here left c
  | t :: rest =>
    match binaryOp? t.kind with
    | none => .here left c
    | some op =>
      if above < op.level then
        match parseExpr op.level (c.past t rest) with
        | ⟨right, d, h⟩ =>
          (parseOperators above (.binary op left right (left.span.merge right.span)) d).since
            (Nat.le_trans h (Cursor.length_past_le hc))
      else .here left c
termination_by 5 * c.ahead.length
decreasing_by all_goals have := Cursor.length_past_lt hc; omega

/-- An operand: an expression without operators of two operands outside brackets. -/
def parseOperand (c : Cursor) : Parsed Expr c :=
  match parsePrimary c with
  | ⟨base, rest, h⟩ => (parseIndexes base rest).since h
termination_by 5 * c.ahead.length + 2
decreasing_by all_goals omega

/-- The bracketed indexes that follow `base`. -/
def parseIndexes (base : Expr) (c : Cursor) : Parsed Expr c :=
  match hc : c.ahead with
  | [] => .here base c
  | t :: rest =>
    if t.kind = .mark .leftBracket then
      match parseExpr 0 (c.past t rest) with
      | ⟨position, d, h⟩ =>
        have shorter : (d.expect (.mark .rightBracket)).ahead.length < c.ahead.length :=
          Nat.lt_of_le_of_lt (Nat.le_trans (d.length_expect _) h) (Cursor.length_past_lt hc)
        (parseIndexes
          (.index base position (base.span.merge (d.expect (.mark .rightBracket)).behind))
          (d.expect (.mark .rightBracket))).since (Nat.le_of_lt shorter)
    else .here base c
termination_by 5 * c.ahead.length
decreasing_by all_goals have := Cursor.length_past_lt hc; omega

/-- A literal, a name, a call, a list, a prefix operator with its operand, or an expression
in parentheses. -/
def parsePrimary (c : Cursor) : Parsed Expr c :=
  match hc : c.ahead with
  | [] => ⟨.hole c.span, c.expected "expression", by simp⟩
  | t :: rest =>
    match unaryOp? t.kind with
    | some op =>
      ((parseExpr tightestLevel (c.past t rest)).map fun operand =>
        .unary op operand (t.span.merge operand.span)).since (Cursor.length_past_le hc)
    | none =>
      match t.kind with
      | .int =>
        let found := intLiteral t (c.past t rest)
        ⟨found.1, found.2, by simp [found, ahead_intLiteral, hc]⟩
      | .str =>
        (Parsed.here (.str (String.ofList (Text.decodeEscapes (stringBody t))) t.span)
          (c.past t rest)).since (Cursor.length_past_le hc)
      | .keyword .trueWord =>
        (Parsed.here (.bool true t.span) (c.past t rest)).since (Cursor.length_past_le hc)
      | .keyword .falseWord =>
        (Parsed.here (.bool false t.span) (c.past t rest)).since (Cursor.length_past_le hc)
      | .mark .leftParen =>
        match parseExpr 0 (c.past t rest) with
        | ⟨inner, d, h⟩ =>
          ⟨inner, d.expect (.mark .rightParen),
            Nat.le_trans (d.length_expect _) (Nat.le_trans h (Cursor.length_past_le hc))⟩
      | .mark .leftBracket =>
        match parseItems (.mark .rightBracket) (c.past t rest) with
        | ⟨items, d, h⟩ =>
          ⟨.list items (t.span.merge d.behind), d, Nat.le_trans h (Cursor.length_past_le hc)⟩
      | .ident =>
        if (c.past t rest).kind = .mark .leftParen then
          match parseItems (.mark .rightParen) (c.past t rest).advance with
          | ⟨args, d, h⟩ =>
            ⟨.call ⟨t.text, t.span⟩ args (t.span.merge d.behind), d,
              Nat.le_trans h (Nat.le_trans (Cursor.length_advance _)
                (Cursor.length_past_le hc))⟩
        else
          (Parsed.here (.name ⟨t.text, t.span⟩) (c.past t rest)).since
            (Cursor.length_past_le hc)
      | .malformed _ =>
        (Parsed.here (.hole t.span) (c.past t rest)).since (Cursor.length_past_le hc)
      | k =>
        if staysForClause k then ⟨.hole t.span, c.expected "expression", by simp⟩
        else
          ⟨.hole t.span, (c.expected "expression").advance, by
            have := (c.expected "expression").length_advance
            simpa using this⟩
termination_by 5 * c.ahead.length + 1
decreasing_by
  all_goals
    have := Cursor.length_past_lt hc
    have := (c.past t rest).length_advance
    omega

/-- Expressions with commas between them, up to the closing mark `close` and with it. -/
def parseItems (close : TokenKind) (c : Cursor) : Parsed (List Expr) c :=
  if c.kind = close then ⟨[], c.advance, c.length_advance⟩ else parseItemsFrom close c
termination_by 5 * c.ahead.length + 5
decreasing_by all_goals omega

/-- One expression or more, with commas between them, up to `close` and with it. -/
def parseItemsFrom (close : TokenKind) (c : Cursor) : Parsed (List Expr) c :=
  match parseExpr 0 c with
  | ⟨item, d, h⟩ =>
    match hd : d.ahead with
    | t :: rest =>
      if t.kind = .mark .comma then
        ((parseItemsFrom close (d.past t rest)).map (item :: ·)).since
          (Nat.le_trans (Cursor.length_past_le hd) h)
      else ⟨[item], d.expect close, Nat.le_trans (d.length_expect close) h⟩
    | [] => ⟨[item], d.expect close, Nat.le_trans (d.length_expect close) h⟩
termination_by 5 * c.ahead.length + 4
decreasing_by
  · omega
  · have := Cursor.length_past_lt hd
    omega

end

end LineQuery.Syntax
