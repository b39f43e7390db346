import LineQuery.Syntax.Parser

/-! # The grammar

The language of the front end as derivations, said without the parser: which tokens derive
which tree. The end of the tokens is the end of the program.

* program: `use IDENT ;` and entries, in any order
* entry: `IDENT ( [IDENT {, IDENT}] ) { query }`
* query: from, clauses, `select` expression
* from: `from IDENT [at IDENT] in` expression
* clause: from, `where` expression, `let IDENT =` expression, `skip` expression, `take`
  expression
* expression: operands with operators of two operands between them, which bind by the ladder
  of operators and to the left; an operand is a primary expression with indexes behind it and
  prefix operators in front; no list has a comma at its end

An integer that is too large derives a hole, so that a derivation is a matter of the kinds of
the tokens alone.
-/

namespace LineQuery.Syntax

def Token.ident (t : Token) : Ident :=
  ⟨t.text, t.span⟩

/-- The expression that an integer token stands for. -/
def Token.intExpr (t : Token) : Expr :=
  match Text.readInt64? t.text.toList with
  | some n => .int n t.span
  | none => .hole t.span

/-- The expression that a string token stands for. -/
def Token.strExpr (t : Token) : Expr :=
  .str (String.ofList (Text.decodeEscapes (stringBody t))) t.span

/-! ## Operators -/

def BinaryOp.mark : BinaryOp → Mark
  | or => .orOr
  | and => .andAnd
  | eq => .eqEq
  | ne => .notEq
  | lt => .lt
  | le => .le
  | gt => .gt
  | ge => .ge
  | add => .plus
  | sub => .minus
  | mul => .star
  | div => .slash
  | rem => .percent

def UnaryOp.mark : UnaryOp → Mark
  | not => .bang
  | neg => .minus

namespace BinaryOp

/-- The operators of two operands, from those that bind least to those that bind most. -/
def ladder : List (List BinaryOp) :=
  [[or], [and], [eq, ne], [lt, le, gt, ge], [add, sub], [mul, div, rem]]

/-- The rung of the ladder on which an operator stands, counted from one. -/
def rank (op : BinaryOp) : Nat :=
  ladder.findIdx (op ∈ ·) + 1

def topRank : Nat :=
  ladder.length

/-- The parser compares operators by the ladder. -/
theorem level_eq_rank (op : BinaryOp) : op.level = op.rank := by
  cases op <;> rfl

theorem rank_pos (op : BinaryOp) : 0 < op.rank :=
  Nat.succ_pos _

theorem rank_le (op : BinaryOp) : op.rank ≤ topRank := by
  cases op <;> decide

end BinaryOp

/-- The parser takes the mark of an operator of two operands for it, and no other token. -/
theorem binaryOp?_eq_some_iff {k : TokenKind} {op : BinaryOp} :
    binaryOp? k = some op ↔ k = .mark op.mark := by
  constructor
  · intro h
    unfold binaryOp? at h
    split at h <;> first | exact Option.some.inj h ▸ rfl | exact nomatch h
  · rintro rfl
    cases op <;> rfl

/-- The parser takes the mark of a prefix operator for it, and no other token. -/
theorem unaryOp?_eq_some_iff {k : TokenKind} {op : UnaryOp} :
    unaryOp? k = some op ↔ k = .mark op.mark := by
  constructor
  · intro h
    unfold unaryOp? at h
    split at h <;> first | exact Option.some.inj h ▸ rfl | exact nomatch h
  · rintro rfl
    cases op <;> rfl

/-! ## Expressions -/

mutual

/-- Expressions whose operators of two operands stand above rung `above` of the ladder. The left
operand of an operator may hold operators of the same rung, the right one may not. -/
inductive DerivesExpr : Nat → List Token → Expr → Prop where
  | operand {above ts e} : DerivesOperand ts e → DerivesExpr above ts e
  | binary {above op ts t us left right} : t.kind = .mark op.mark → above < op.rank →
      DerivesExpr (op.rank - 1) ts left → DerivesExpr op.rank us right →
      DerivesExpr above (ts ++ t :: us) (.binary op left right (left.span.merge right.span))

/-- Operands: prefix operators in front of an expression with its indexes. -/
inductive DerivesOperand : List Token → Expr → Prop where
  | indexed {ts e} : DerivesIndexed ts e → DerivesOperand ts e
  | unary {op t ts e} : t.kind = .mark op.mark → DerivesOperand ts e →
      DerivesOperand (t :: ts) (.unary op e (t.span.merge e.span))

/-- Primary expressions with indexes behind them. -/
inductive DerivesIndexed : List Token → Expr → Prop where
  | primary {ts e} : DerivesPrimary ts e → DerivesIndexed ts e
  | index {ts us base position left right} : DerivesIndexed ts base →
      left.kind = .mark .leftBracket → DerivesExpr 0 us position →
      right.kind = .mark .rightBracket →
      DerivesIndexed (ts ++ left :: us ++ [right])
        (.index base position (base.span.merge right.span))

/-- Literals, names, expressions in parentheses, lists and calls. -/
inductive DerivesPrimary : List Token → Expr → Prop where
  | int {t} : t.kind = .int → DerivesPrimary [t] t.intExpr
  | str {t} : t.kind = .str → DerivesPrimary [t] t.strExpr
  | true {t} : t.kind = .keyword .trueWord → DerivesPrimary [t] (.bool true t.span)
  | false {t} : t.kind = .keyword .falseWord → DerivesPrimary [t] (.bool false t.span)
  | name {t} : t.kind = .ident → DerivesPrimary [t] (.name t.ident)
  | paren {left ts e right} : left.kind = .mark .leftParen → DerivesExpr 0 ts e →
      right.kind = .mark .rightParen → DerivesPrimary (left :: ts ++ [right]) e
  | list {left ts items right} : left.kind = .mark .leftBracket → DerivesItems ts items →
      right.kind = .mark .rightBracket →
      DerivesPrimary (left :: ts ++ [right]) (.list items (left.span.merge right.span))
  | call {t left ts args right} : t.kind = .ident → left.kind = .mark .leftParen →
      DerivesItems ts args → right.kind = .mark .rightParen →
      DerivesPrimary (t :: left :: ts ++ [right]) (.call t.ident args (t.span.merge right.span))

/-- Expressions with commas between them, perhaps none. -/
inductive DerivesItems : List Token → List Expr → Prop where
  | none : DerivesItems [] []
  | some {ts items} : DerivesItemsFrom ts items → DerivesItems ts items

/-- One expression or more, with commas between them. -/
inductive DerivesItemsFrom : List Token → List Expr → Prop where
  | last {ts item} : DerivesExpr 0 ts item → DerivesItemsFrom ts [item]
  | comma {ts us item items t} : DerivesExpr 0 ts item → t.kind = .mark .comma →
      DerivesItemsFrom us items → DerivesItemsFrom (ts ++ t :: us) (item :: items)

end

/-! ## Clauses and queries -/

/-- A `from` clause behind its first word. -/
inductive DerivesRange : List Token → FromClause → Prop where
  | plain {x word ts e} : x.kind = .ident → word.kind = .keyword .inWord →
      DerivesExpr 0 ts e → DerivesRange (x :: word :: ts) ⟨x.ident, none, e⟩
  | indexed {x atWord i word ts e} : x.kind = .ident → atWord.kind = .keyword .atWord →
      i.kind = .ident → word.kind = .keyword .inWord → DerivesExpr 0 ts e →
      DerivesRange (x :: atWord :: i :: word :: ts) ⟨x.ident, some i.ident, e⟩

/-- The clauses between the first `from` and the `select`. -/
inductive DerivesClause : List Token → Clause → Prop where
  | range {word ts clause} : word.kind = .keyword .fromWord → DerivesRange ts clause →
      DerivesClause (word :: ts) (.range clause)
  | filter {word ts e} : word.kind = .keyword .whereWord → DerivesExpr 0 ts e →
      DerivesClause (word :: ts) (.filter e)
  | bind {word x assign ts e} : word.kind = .keyword .letWord → x.kind = .ident →
      assign.kind = .mark .assign → DerivesExpr 0 ts e →
      DerivesClause (word :: x :: assign :: ts) (.bind x.ident e)
  | skip {word ts e} : word.kind = .keyword .skipWord → DerivesExpr 0 ts e →
      DerivesClause (word :: ts) (.skip e)
  | take {word ts e} : word.kind = .keyword .takeWord → DerivesExpr 0 ts e →
      DerivesClause (word :: ts) (.take e)

/-- Clauses and the `select` behind them. -/
inductive DerivesBody : List Token → List Clause → Expr → Prop where
  | select {word ts e} : word.kind = .keyword .selectWord → DerivesExpr 0 ts e →
      DerivesBody (word :: ts) [] e
  | clause {ts us clause clauses e} : DerivesClause ts clause → DerivesBody us clauses e →
      DerivesBody (ts ++ us) (clause :: clauses) e

inductive DerivesQuery : List Token → Query → Prop where
  | mk {word ts us source clauses e} : word.kind = .keyword .fromWord →
      DerivesRange ts source → DerivesBody us clauses e →
      DerivesQuery (word :: ts ++ us) ⟨source, clauses, e⟩

/-! ## Entries and documents -/

/-- One name or more, with commas between them. -/
inductive DerivesParamsFrom : List Token → List Ident → Prop where
  | last {x} : x.kind = .ident → DerivesParamsFrom [x] [x.ident]
  | comma {x t ts params} : x.kind = .ident → t.kind = .mark .comma →
      DerivesParamsFrom ts params → DerivesParamsFrom (x :: t :: ts) (x.ident :: params)

/-- The parameters of an entry, perhaps none. -/
inductive DerivesParams : List Token → List Ident → Prop where
  | none : DerivesParams [] []
  | some {ts params} : DerivesParamsFrom ts params → DerivesParams ts params

inductive DerivesEntry : List Token → Entry → Prop where
  | mk {x leftParen ts rightParen leftBrace us rightBrace params query} : x.kind = .ident →
      leftParen.kind = .mark .leftParen → DerivesParams ts params →
      rightParen.kind = .mark .rightParen → leftBrace.kind = .mark .leftBrace →
      DerivesQuery us query → rightBrace.kind = .mark .rightBrace →
      DerivesEntry (x :: leftParen :: ts ++ rightParen :: leftBrace :: us ++ [rightBrace])
        ⟨x.ident, params, query⟩

inductive DerivesDocument : List Token → Document → Prop where
  | nil : DerivesDocument [] ⟨[], []⟩
  | use {word x semicolon ts d} : word.kind = .keyword .useWord → x.kind = .ident →
      semicolon.kind = .mark .semicolon → DerivesDocument ts d →
      DerivesDocument (word :: x :: semicolon :: ts) (d.addUse x.ident)
  | entry {ts us e d} : DerivesEntry ts e → DerivesDocument us d →
      DerivesDocument (ts ++ us) (d.addEntry e)

end LineQuery.Syntax
