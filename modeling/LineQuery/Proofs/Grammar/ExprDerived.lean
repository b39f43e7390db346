import LineQuery.Proofs.Grammar.ExprReading

/-! # Derived expressions are read

Tokens that derive an expression are read as that expression and without a finding, whatever
stands behind them that cannot belong to it.
-/

namespace LineQuery.Syntax

namespace Parsed

variable {α β : Type} {c d : Cursor}

/-- What was read, and the cursor behind it. -/
def out (p : Parsed α c) : α × Cursor :=
  (p.value, p.rest)

@[simp] theorem out_since (p : Parsed α d) (h : d.ahead.length ≤ c.ahead.length) :
    (p.since h).out = p.out := rfl

@[simp] theorem out_map (f : α → β) (p : Parsed α c) :
    (p.map f).out = (f p.out.1, p.out.2) := rfl

end Parsed

namespace Cursor

/-- The cursor behind the tokens `ts`, with `more` ahead. -/
def passed (c : Cursor) (ts more : List Token) : Cursor :=
  { c with ahead := more, behind := (ts.getLast?.map Token.span).getD c.behind }

theorem passed_nil {c : Cursor} {more : List Token} (h : c.ahead = more) :
    c.passed [] more = c := by
  subst h
  rfl

/-- Passing tokens twice passes them all. -/
@[simp] theorem passed_passed (c : Cursor) (ts us more more' : List Token) :
    (c.passed ts more).passed us more' = c.passed (ts ++ us) more' := by
  simp only [passed, List.getLast?_append]
  cases us.getLast? <;> rfl

@[simp] theorem past_passed (c : Cursor) (ts more rest : List Token) (t : Token) :
    (c.passed ts more).past t rest = c.passed (ts ++ [t]) rest :=
  passed_passed c ts [t] more rest

theorem past_eq_passed (c : Cursor) (t : Token) (rest : List Token) :
    c.past t rest = c.passed [t] rest := rfl

@[simp] theorem behind_passed (c : Cursor) (ts more : List Token) (t : Token) :
    (c.passed (ts ++ [t]) more).behind = t.span := by
  simp [passed]

theorem kind_passed (c : Cursor) (ts rest : List Token) (t : Token) :
    (c.passed ts (t :: rest)).kind = t.kind := rfl

theorem expect_of_ahead {c : Cursor} {t : Token} {rest : List Token} {m : Mark}
    (h : c.ahead = t :: rest) (hk : t.kind = .mark m) : c.expect (.mark m) = c.past t rest := by
  rw [expect, if_pos ((kind_of_ahead h).trans hk), advance_of_ahead h]

/-- What may stand behind an expression whose operators of two operands are of levels above
`above`. A parenthesis would make a call of a name. -/
structure Follows (above : Nat) (c : Cursor) : Prop where
  paren : c.kind ≠ .mark .leftParen
  stops : Stops above c

theorem Follows.of_kind {above : Nat} {c : Cursor} {k : TokenKind} (h : c.kind = k)
    (hk : k ≠ .mark .leftParen ∧ k ≠ .mark .leftBracket ∧ binaryOp? k = none) :
    Follows above c := by
  obtain ⟨hparen, hbracket, hop⟩ := hk
  refine ⟨h ▸ hparen, h ▸ hbracket, fun op hop' => ?_⟩
  rw [h, hop] at hop'
  exact nomatch hop'

/-- In front of an operator an expression ends whose own operators all bind more tightly. -/
theorem Follows.of_binaryOp? {above : Nat} {c : Cursor} {op : BinaryOp}
    (h : binaryOp? c.kind = some op) (hlevel : op.level ≤ above) : Follows above c := by
  refine ⟨fun hk => ?_, fun hk => ?_, fun op' hop' => ?_⟩
  · rw [hk] at h
    exact nomatch h
  · rw [hk] at h
    exact nomatch h
  · exact Option.some.inj (h.symm.trans hop') ▸ hlevel

/-- Only the tokens ahead matter. -/
theorem Follows.of_ahead {above : Nat} {c d : Cursor} (h : Follows above c)
    (heq : c.ahead = d.ahead) : Follows above d := by
  have hkind : c.kind = d.kind := by rw [Cursor.kind, Cursor.kind, heq]
  exact ⟨hkind ▸ h.paren, hkind ▸ h.stops.index, hkind ▸ h.stops.operator⟩

theorem Follows.mono {above above' : Nat} {c : Cursor} (h : Follows above c)
    (hle : above ≤ above') : Follows above' c :=
  ⟨h.paren, h.stops.index, fun op hop => Nat.le_trans (h.stops.operator op hop) hle⟩

end Cursor

open Cursor

/-! ## Equations -/

theorem out_parseExpr (above : Nat) (c : Cursor) : (parseExpr above c).out =
    (parseOperators above (parseOperand c).out.1 (parseOperand c).out.2).out := by
  rw [parseExpr]
  rfl

theorem out_parseOperand (c : Cursor) : (parseOperand c).out =
    (parseIndexes (parsePrimary c).out.1 (parsePrimary c).out.2).out := by
  rw [parseOperand]
  rfl

/-- The operators end where an expression of their levels stops. -/
theorem out_parseOperators_of_stops {above : Nat} {left : Expr} {c : Cursor}
    (h : Stops above c) : (parseOperators above left c).out = (left, c) := by
  rw [parseOperators]
  split
  · rfl
  · rename_i t rest heq
    split
    · rfl
    · rename_i op hop
      have := h.operator op ((kind_of_ahead heq).symm ▸ hop)
      rw [if_neg (Nat.not_lt.mpr this)]
      rfl

/-- An operator that binds tightly enough takes what it stands behind as its left operand. -/
theorem out_parseOperators {above : Nat} {left : Expr} {c : Cursor} {t : Token}
    {rest : List Token} {op : BinaryOp} (h : c.ahead = t :: rest)
    (hop : binaryOp? t.kind = some op) (hlevel : above < op.level) :
    (parseOperators above left c).out =
      (parseOperators above
        (.binary op left (parseExpr op.level (c.past t rest)).out.1
          (left.span.merge (parseExpr op.level (c.past t rest)).out.1.span))
        (parseExpr op.level (c.past t rest)).out.2).out := by
  rw [parseOperators]
  split
  · rename_i heq
    cases h.symm.trans heq
  · rename_i t' rest' heq
    obtain ⟨rfl, rfl⟩ := List.cons.inj (h.symm.trans heq)
    split
    · rename_i hnone
      cases hop.symm.trans hnone
    · rename_i op' hop'
      obtain rfl := Option.some.inj (hop.symm.trans hop')
      rw [if_pos hlevel]
      rfl

theorem out_parseIndexes_of_ne {base : Expr} {c : Cursor} (h : c.kind ≠ .mark .leftBracket) :
    (parseIndexes base c).out = (base, c) := by
  rw [parseIndexes]
  split
  · rfl
  · rename_i t rest heq
    rw [if_neg (kind_of_ahead heq ▸ h)]
    rfl

/-- An index applies to all that was read in front of it. -/
theorem out_parseIndexes {base : Expr} {c : Cursor} {left : Token} {rest : List Token}
    (h : c.ahead = left :: rest) (hkind : left.kind = .mark .leftBracket) :
    (parseIndexes base c).out =
      (parseIndexes
        (.index base (parseExpr 0 (c.past left rest)).out.1 (base.span.merge
          ((parseExpr 0 (c.past left rest)).out.2.expect (.mark .rightBracket)).behind))
        ((parseExpr 0 (c.past left rest)).out.2.expect (.mark .rightBracket))).out := by
  rw [parseIndexes]
  split
  · rename_i heq
    cases h.symm.trans heq
  · rename_i t' rest' heq
    obtain ⟨rfl, rfl⟩ := List.cons.inj (h.symm.trans heq)
    rw [if_pos hkind]
    rfl

theorem out_parsePrimary_unary {c : Cursor} {t : Token} {rest : List Token} {op : UnaryOp}
    (h : c.ahead = t :: rest) (hop : unaryOp? t.kind = some op) : (parsePrimary c).out =
      (.unary op (parseExpr tightestLevel (c.past t rest)).out.1
        (t.span.merge (parseExpr tightestLevel (c.past t rest)).out.1.span),
      (parseExpr tightestLevel (c.past t rest)).out.2) := by
  obtain ⟨_, _, _, _⟩ := c
  cases h
  rw [parsePrimary]
  simp only [hop]
  rfl

/-- What is read at a token that is no prefix operator. -/
theorem out_parsePrimary_of_none {c : Cursor} {t : Token} {rest : List Token}
    (h : c.ahead = t :: rest) (hop : unaryOp? t.kind = none) :
    (parsePrimary c).out =
      match t.kind with
      | .int => intLiteral t (c.past t rest)
      | .str => (.str (String.ofList (Text.decodeEscapes (stringBody t))) t.span, c.past t rest)
      | .keyword .trueWord => (.bool true t.span, c.past t rest)
      | .keyword .falseWord => (.bool false t.span, c.past t rest)
      | .mark .leftParen =>
        ((parseExpr 0 (c.past t rest)).out.1,
          (parseExpr 0 (c.past t rest)).out.2.expect (.mark .rightParen))
      | .mark .leftBracket =>
        let items := (parseItems (.mark .rightBracket) (c.past t rest)).out
        (.list items.1 (t.span.merge items.2.behind), items.2)
      | .ident =>
        if (c.past t rest).kind = .mark .leftParen then
          let args := (parseItems (.mark .rightParen) (c.past t rest).advance).out
          (.call t.ident args.1 (t.span.merge args.2.behind), args.2)
        else (.name t.ident, c.past t rest)
      | .malformed _ => (.hole t.span, c.past t rest)
      | k =>
        (.hole t.span,
          if staysForClause k then c.expected "expression"
          else (c.expected "expression").advance) := by
  obtain ⟨_, _, _, _⟩ := c
  cases h
  rw [parsePrimary]
  simp only [hop]
  cases t.kind with
  | keyword k => cases k <;> rfl
  | mark m => cases m <;> rfl
  | ident =>
    dsimp only
    split <;> rfl
  | _ => rfl

theorem out_parsePrimary_paren {c : Cursor} {t : Token} {rest : List Token}
    (h : c.ahead = t :: rest) (hkind : t.kind = .mark .leftParen) : (parsePrimary c).out =
      ((parseExpr 0 (c.past t rest)).out.1,
      (parseExpr 0 (c.past t rest)).out.2.expect (.mark .rightParen)) := by
  rw [out_parsePrimary_of_none h (by rw [hkind]; rfl), hkind]

theorem out_parsePrimary_list {c : Cursor} {t : Token} {rest : List Token}
    (h : c.ahead = t :: rest) (hkind : t.kind = .mark .leftBracket) : (parsePrimary c).out =
      (.list (parseItems (.mark .rightBracket) (c.past t rest)).out.1
        (t.span.merge (parseItems (.mark .rightBracket) (c.past t rest)).out.2.behind),
      (parseItems (.mark .rightBracket) (c.past t rest)).out.2) := by
  rw [out_parsePrimary_of_none h (by rw [hkind]; rfl), hkind]

theorem out_parsePrimary_call {c : Cursor} {t left : Token} {rest : List Token}
    (h : c.ahead = t :: left :: rest) (hkind : t.kind = .ident)
    (hleft : left.kind = .mark .leftParen) : (parsePrimary c).out =
      (.call t.ident (parseItems (.mark .rightParen) (c.passed [t, left] rest)).out.1
        (t.span.merge (parseItems (.mark .rightParen) (c.passed [t, left] rest)).out.2.behind),
      (parseItems (.mark .rightParen) (c.passed [t, left] rest)).out.2) := by
  rw [out_parsePrimary_of_none h (by rw [hkind]; rfl), hkind]
  exact if_pos hleft

theorem out_parseItems {close : TokenKind} {c : Cursor} (h : c.kind ≠ close) :
    (parseItems close c).out = (parseItemsFrom close c).out := by
  rw [parseItems, if_neg h]

theorem out_parseItemsFrom_comma {close : TokenKind} {c d : Cursor} {item : Expr} {t : Token}
    {rest : List Token} (h : (parseExpr 0 c).out = (item, d)) (hd : d.ahead = t :: rest)
    (hkind : t.kind = .mark .comma) : (parseItemsFrom close c).out =
      (item :: (parseItemsFrom close (d.past t rest)).out.1,
      (parseItemsFrom close (d.past t rest)).out.2) := by
  obtain ⟨rfl, rfl⟩ := Prod.mk.inj h
  rw [parseItemsFrom]
  dsimp only
  split
  · rename_i t' rest' heq
    obtain ⟨rfl, rfl⟩ := List.cons.inj (hd.symm.trans heq)
    rw [if_pos hkind]
    rfl
  · rename_i heq
    cases hd.symm.trans heq

theorem out_parseItemsFrom_last {close : TokenKind} {c d : Cursor} {item : Expr}
    (h : (parseExpr 0 c).out = (item, d)) (hkind : d.kind ≠ .mark .comma) :
    (parseItemsFrom close c).out = ([item], d.expect close) := by
  obtain ⟨rfl, rfl⟩ := Prod.mk.inj h
  rw [parseItemsFrom]
  dsimp only
  split
  · rename_i t rest heq
    rw [if_neg (kind_of_ahead heq ▸ hkind)]
    rfl
  · rfl

/-! ## First tokens -/

/-- A token that closes no list. -/
def Token.Opens (t : Token) : Prop :=
  t.kind ≠ .mark .rightParen ∧ t.kind ≠ .mark .rightBracket

theorem Token.opens_of_kind {t : Token} {k : TokenKind} (h : t.kind = k)
    (hk : k ≠ .mark .rightParen ∧ k ≠ .mark .rightBracket) : t.Opens := by
  rw [Token.Opens, h]
  exact hk

mutual

/-- An expression starts with a token that closes nothing. -/
theorem DerivesExpr.opens {above : Nat} {ts : List Token} {e : Expr} :
    DerivesExpr above ts e → ∃ t rest, ts = t :: rest ∧ t.Opens
  | .operand h => h.opens
  | .binary _ _ h _ => by
    obtain ⟨t, rest, rfl, ht⟩ := h.opens
    exact ⟨t, _, rfl, ht⟩

theorem DerivesOperand.opens {ts : List Token} {e : Expr} :
    DerivesOperand ts e → ∃ t rest, ts = t :: rest ∧ t.Opens
  | .indexed h => h.opens
  | @DerivesOperand.unary op _ _ _ hop _ =>
    ⟨_, _, rfl, Token.opens_of_kind hop (by cases op <;> decide)⟩

theorem DerivesIndexed.opens {ts : List Token} {e : Expr} :
    DerivesIndexed ts e → ∃ t rest, ts = t :: rest ∧ t.Opens
  | .primary h => h.opens
  | .index h _ _ _ => by
    obtain ⟨t, rest, rfl, ht⟩ := h.opens
    exact ⟨t, _, rfl, ht⟩

theorem DerivesPrimary.opens {ts : List Token} {e : Expr} :
    DerivesPrimary ts e → ∃ t rest, ts = t :: rest ∧ t.Opens
  | .int h | .str h | .true h | .false h | .name h | .paren h _ _ | .list h _ _
  | .call h _ _ _ => ⟨_, _, rfl, Token.opens_of_kind h ⟨nofun, nofun⟩⟩

end

theorem DerivesItemsFrom.opens {ts : List Token} {items : List Expr}
    (h : DerivesItemsFrom ts items) : ∃ t rest, ts = t :: rest ∧ t.Opens := by
  cases h with
  | last h => exact h.opens
  | comma h _ _ =>
    obtain ⟨t, rest, rfl, ht⟩ := h.opens
    exact ⟨t, _, rfl, ht⟩

/-! ## Reading what derives -/

/-- An expression is read whole if it is read up to operators behind it and there are none. -/
theorem Cursor.Follows.whole {c d : Cursor} {e : Expr} (hf : Follows 0 d)
    (h : Follows 1 d → (parseExpr 0 c).out = (parseOperators 0 e d).out) :
    (parseExpr 0 c).out = (e, d) :=
  (h (hf.mono (Nat.le_succ 0))).trans (out_parseOperators_of_stops hf.stops)

mutual

/-- An expression is read, and then operators of the levels that were asked for, which may be
looser than its own. -/
theorem DerivesExpr.out {level : Nat} {ts : List Token} {e : Expr} :
    DerivesExpr level ts e → ∀ {above : Nat} {c : Cursor} {more : List Token}, above ≤ level →
    (∀ t ∈ ts, t.Fits) → c.ahead = ts ++ more → Follows (level + 1) (c.passed ts more) →
    (parseExpr above c).out = (parseOperators above e (c.passed ts more)).out
  | .operand h, above, c, more, _, hfits, heq, hf => by
    rw [out_parseExpr, h.out hfits heq hf.paren hf.stops.index]
  | @DerivesExpr.binary _ op ts t us _ _ hop hlevel hl hr, above, c, more, hle, hfits, heq,
      hf => by
    simp only [List.forall_mem_append, List.forall_mem_cons] at hfits
    obtain ⟨hfitsl, -, hfitsr⟩ := hfits
    have heql : c.ahead = ts ++ (t :: us ++ more) := by simpa using heq
    -- The left operand is read up to `op`, which goes on with it: its operators are of the same
    -- level or tighter. The right operand ends where the whole ends.
    have hop := binaryOp?_eq_some_iff.mpr hop
    have hlevel' := op.level_eq_rank
    have habove : above ≤ op.rank - 1 := by omega
    have hfollows : Follows (op.rank - 1 + 1) (c.passed ts (t :: us ++ more)) :=
      @Follows.of_binaryOp? _ _ op hop (by omega)
    have hleft := hl.out habove hfitsl heql hfollows
    have hright := hr.out (c := c.passed (ts ++ [t]) (us ++ more))
      (Nat.le_refl op.rank) hfitsr rfl (by simpa using hf.mono (by omega))
    have hstops : Stops op.rank (c.passed (ts ++ t :: us) more) :=
      (hf.mono (by omega)).stops
    rw [hleft, out_parseOperators (c := c.passed ts (t :: us ++ more)) rfl hop (by omega),
      hlevel', past_passed, List.append_eq, hright, passed_passed, List.append_assoc,
      List.singleton_append, out_parseOperators_of_stops hstops]

/-- What derives from an operand is read as it. -/
theorem DerivesOperand.out {ts : List Token} {e : Expr} :
    DerivesOperand ts e → ∀ {c : Cursor} {more : List Token}, (∀ t ∈ ts, t.Fits) →
    c.ahead = ts ++ more → (c.passed ts more).kind ≠ .mark .leftParen →
    (c.passed ts more).kind ≠ .mark .leftBracket → (parseOperand c).out = (e, c.passed ts more)
  | .indexed h, c, more, hfits, heq, hparen, hbracket => by
    rw [h.out hfits heq hparen, out_parseIndexes_of_ne hbracket]
  | @DerivesOperand.unary _ t ts e hop h, c, more, hfits, heq, hparen, hbracket => by
    simp only [List.forall_mem_cons] at hfits
    have hoperand := h.out (c := c.past t (ts ++ more)) hfits.2 rfl hparen hbracket
    -- The operand of a prefix operator is an expression of the tightest level, which has no
    -- operators of two operands.
    have hstops : Stops tightestLevel (c.passed (t :: ts) more) :=
      ⟨hbracket, fun op _ => op.level_le⟩
    have hinner : (parseExpr tightestLevel (c.past t (ts ++ more))).out =
        (e, c.passed (t :: ts) more) := by
      rw [out_parseExpr, hoperand, past_eq_passed, passed_passed, List.singleton_append,
        out_parseOperators_of_stops hstops]
    have hprimary := out_parsePrimary_unary (show c.ahead = t :: (ts ++ more) from heq)
      (unaryOp?_eq_some_iff.mpr hop)
    rw [out_parseOperand, hprimary, hinner, out_parseIndexes_of_ne hbracket]

/-- What is primary is read, and then the indexes behind it. -/
theorem DerivesIndexed.out {ts : List Token} {e : Expr} :
    DerivesIndexed ts e → ∀ {c : Cursor} {more : List Token}, (∀ t ∈ ts, t.Fits) →
    c.ahead = ts ++ more → (c.passed ts more).kind ≠ .mark .leftParen →
    (parseOperand c).out = (parseIndexes e (c.passed ts more)).out
  | .primary h, c, more, hfits, heq, hparen => by
    rw [out_parseOperand, h.out hfits heq hparen]
  | @DerivesIndexed.index ts us _ _ left right hbase hleft hposition hright, c, more, hfits, heq,
      hparen => by
    simp only [List.forall_mem_append, List.forall_mem_cons] at hfits
    obtain ⟨⟨hfitsl, -, hfitsr⟩, -⟩ := hfits
    have heql : c.ahead = ts ++ left :: (us ++ right :: more) := by simpa using heq
    have hbase' := hbase.out hfitsl heql (by rw [kind_passed, hleft]; decide)
    let d := c.passed (ts ++ [left]) (us ++ right :: more)
    have hf : Follows 0 (d.passed us (right :: more)) :=
      Follows.of_kind (k := .mark .rightBracket) hright ⟨nofun, nofun, rfl⟩
    have hposition' := hf.whole (hposition.out (c := d) (Nat.le_refl 0) hfitsr rfl)
    rw [hbase', out_parseIndexes rfl hleft, past_passed, hposition', passed_passed,
      expect_of_ahead rfl hright, past_passed, behind_passed, List.append_assoc ts,
      List.singleton_append]

theorem DerivesPrimary.out {ts : List Token} {e : Expr} :
    DerivesPrimary ts e → ∀ {c : Cursor} {more : List Token}, (∀ t ∈ ts, t.Fits) →
    c.ahead = ts ++ more → (c.passed ts more).kind ≠ .mark .leftParen →
    (parsePrimary c).out = (e, c.passed ts more)
  | .int (t := t) h, c, more, hfits, heq, _ => by
    obtain ⟨n, hn⟩ := Option.isSome_iff_exists.mp (hfits t (List.mem_singleton_self t) h)
    obtain ⟨_, _, _, _⟩ := c
    cases heq
    rw [parsePrimary]
    simp only [h, unaryOp?, intLiteral, Token.intExpr, hn]
    rfl
  | .str h, c, more, _, heq, _ | .true h, c, more, _, heq, _ | .false h, c, more, _, heq, _ => by
    obtain ⟨_, _, _, _⟩ := c
    cases heq
    rw [parsePrimary]
    simp only [h, unaryOp?]
    rfl
  | .name h, c, more, _, heq, hparen => by
    obtain ⟨_, _, _, _⟩ := c
    cases heq
    rw [parsePrimary]
    simp only [h, unaryOp?]
    -- a name in front of a parenthesis would be called
    split
    · rename_i hkind
      exact absurd hkind hparen
    · rfl
  | @DerivesPrimary.paren left ts _ right hleft h hright, c, more, hfits, heq, _ => by
    simp only [List.forall_mem_append, List.forall_mem_cons] at hfits
    have heql : c.ahead = left :: (ts ++ right :: more) := by simpa using heq
    have hf : Follows 0 ((c.passed [left] (ts ++ right :: more)).passed ts (right :: more)) :=
      Follows.of_kind (k := .mark .rightParen) hright ⟨nofun, nofun, rfl⟩
    have hinner := hf.whole (h.out (c := c.passed [left] (ts ++ right :: more)) (Nat.le_refl 0)
      hfits.1.2 rfl)
    rw [out_parsePrimary_paren heql hleft, past_eq_passed, hinner, passed_passed,
      expect_of_ahead rfl hright, past_passed]
    simp
  | @DerivesPrimary.list left ts _ right hleft h hright, c, more, hfits, heq, _ => by
    simp only [List.forall_mem_append, List.forall_mem_cons] at hfits
    have heql : c.ahead = left :: (ts ++ right :: more) := by simpa using heq
    have hitems := h.out (c := c.passed [left] (ts ++ right :: more)) (.inr rfl) hright hfits.1.2
      rfl
    rw [out_parsePrimary_list heql hleft, past_eq_passed, hitems, passed_passed,
      ← List.append_assoc, behind_passed]
    simp
  | @DerivesPrimary.call t left ts _ right hname hleft h hright, c, more, hfits, heq, _ => by
    simp only [List.forall_mem_append, List.forall_mem_cons] at hfits
    have heql : c.ahead = t :: left :: (ts ++ right :: more) := by simpa using heq
    have hargs := h.out (c := c.passed [t, left] (ts ++ right :: more)) (.inl rfl) hright
      hfits.1.2.2 rfl
    rw [out_parsePrimary_call heql hname hleft, hargs, passed_passed, ← List.append_assoc,
      behind_passed]
    simp

/-- What derives from items is read as them, up to the token that closes them. -/
theorem DerivesItems.out {ts : List Token} {items : List Expr} :
    DerivesItems ts items → ∀ {c : Cursor} {right : Token} {more : List Token} {close : Mark},
    close = .rightParen ∨ close = .rightBracket → right.kind = .mark close →
    (∀ t ∈ ts, t.Fits) → c.ahead = ts ++ right :: more →
    (parseItems (.mark close) c).out = (items, c.passed (ts ++ [right]) more)
  | .none, c, right, more, close, _, hright, _, heq => by
    rw [parseItems, if_pos ((kind_of_ahead heq).trans hright)]
    exact congrArg (Prod.mk []) (advance_of_ahead heq)
  | .some h, c, right, more, close, hclose, hright, hfits, heq => by
    -- No item starts with a closing bracket, so the list is not taken for an empty one.
    have hne : c.kind ≠ .mark close := by
      obtain ⟨t, rest, rfl, hopens⟩ := h.opens
      rw [kind_of_ahead heq]
      rcases hclose with rfl | rfl
      · exact hopens.1
      · exact hopens.2
    rw [out_parseItems hne, h.out hclose hright hfits heq]

theorem DerivesItemsFrom.out {ts : List Token} {items : List Expr} :
    DerivesItemsFrom ts items → ∀ {c : Cursor} {right : Token} {more : List Token}
      {close : Mark}, close = .rightParen ∨ close = .rightBracket → right.kind = .mark close →
    (∀ t ∈ ts, t.Fits) → c.ahead = ts ++ right :: more →
    (parseItemsFrom (.mark close) c).out = (items, c.passed (ts ++ [right]) more)
  | @DerivesItemsFrom.last ts _ h, c, right, more, close, hclose, hright, hfits, heq => by
    have hf : Follows 0 (c.passed ts (right :: more)) := by
      refine Follows.of_kind hright ?_
      rcases hclose with rfl | rfl
      · exact ⟨nofun, nofun, rfl⟩
      · exact ⟨nofun, nofun, rfl⟩
    have hitem := hf.whole (h.out (Nat.le_refl 0) hfits heq)
    have hcomma : (c.passed ts (right :: more)).kind ≠ .mark .comma := by
      rw [kind_passed, hright]
      rcases hclose with rfl | rfl <;> exact nofun
    rw [out_parseItemsFrom_last hitem hcomma, expect_of_ahead rfl hright, past_passed]
  | @DerivesItemsFrom.comma ts us _ _ t h hcomma hitems, c, right, more, close, hclose, hright,
      hfits, heq => by
    simp only [List.forall_mem_append, List.forall_mem_cons] at hfits
    have heql : c.ahead = ts ++ t :: (us ++ right :: more) := by simpa using heq
    have hf : Follows 0 (c.passed ts (t :: (us ++ right :: more))) :=
      Follows.of_kind hcomma ⟨nofun, nofun, rfl⟩
    have hitem := hf.whole (h.out (Nat.le_refl 0) hfits.1 heql)
    have hrest := hitems.out (c := c.passed (ts ++ [t]) (us ++ right :: more)) hclose hright
      hfits.2.2 rfl
    rw [out_parseItemsFrom_comma hitem rfl hcomma, past_passed, hrest, passed_passed]
    simp

end

end LineQuery.Syntax
