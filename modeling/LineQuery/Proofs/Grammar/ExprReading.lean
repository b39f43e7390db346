import LineQuery.Proofs.Grammar.Reading

/-! # What is read as an expression

An expression that is read without a finding derives from the tokens that were read. Beside
that it is shown where reading stops: in front of no index, and in front of no operator that
binds tighter than what is read.
-/

namespace LineQuery.Syntax

namespace Cursor

/-! ## Where reading stops -/

/-- What stands behind an expression of levels above `above`: no index goes on with it, nor
an operator of two operands of those levels. -/
structure Stops (above : Nat) (c : Cursor) : Prop where
  index : c.kind ≠ .mark .leftBracket
  operator : ∀ op, binaryOp? c.kind = some op → op.level ≤ above

end Cursor

open Cursor

/-- Indexes are read as long as there are any. -/
theorem index_ne_parseIndexes (base : Expr) (c : Cursor) :
    (parseIndexes base c).rest.kind ≠ .mark .leftBracket := by
  rw [parseIndexes]
  split
  · rename_i heq
    simp [Parsed.here, Cursor.kind, heq]
  · rename_i t rest heq
    split
    · exact index_ne_parseIndexes _ _
    · rename_i hkind
      simpa [Parsed.here, Cursor.kind, heq] using hkind
termination_by c.ahead.length
decreasing_by
  exact Nat.lt_of_le_of_lt (Nat.le_trans (Cursor.length_expect _ _) (Parsed.noLonger _))
    (Cursor.length_past_lt ‹_›)

/-- An operand takes all indexes behind it. -/
theorem index_ne_parseOperand (c : Cursor) :
    (parseOperand c).rest.kind ≠ .mark .leftBracket := by
  rw [parseOperand]
  exact index_ne_parseIndexes _ _

mutual

/-- An expression is read until no operator goes on with it. -/
theorem stops_parseExpr (above : Nat) (c : Cursor) : Stops above (parseExpr above c).rest := by
  rw [parseExpr]
  exact stops_parseOperators above _ _ (index_ne_parseOperand c)
termination_by 5 * c.ahead.length + 3
decreasing_by
  have := (parseOperand c).noLonger
  omega

theorem stops_parseOperators (above : Nat) (left : Expr) (c : Cursor)
    (h : c.kind ≠ .mark .leftBracket) : Stops above (parseOperators above left c).rest := by
  rw [parseOperators]
  split
  · rename_i heq
    refine ⟨h, fun op hop => ?_⟩
    simp [Parsed.here, Cursor.kind, heq, binaryOp?] at hop
  · rename_i t rest heq
    have hkind : c.kind = t.kind := kind_of_ahead heq
    split
    · rename_i hnone
      exact ⟨h, fun op hop => by simp [Parsed.here, hkind, hnone] at hop⟩
    · rename_i op hop
      split
      · have hlt := Cursor.length_past_lt heq
        have hle := (parseExpr op.level (c.past t rest)).noLonger
        -- The right operand has taken all indexes.
        exact stops_parseOperators above _ _ (stops_parseExpr op.level (c.past t rest)).index
      · rename_i hlevel
        refine ⟨h, fun op' hop' => ?_⟩
        rw [Parsed.here, hkind, hop, Option.some.injEq] at hop'
        exact hop' ▸ Nat.not_lt.mp hlevel
termination_by 5 * c.ahead.length
decreasing_by all_goals omega

end

/-! ## Derivations by level -/

/-- Operators of tight levels are among those of looser ones. -/
theorem DerivesExpr.mono {above above' : Nat} {ts : List Token} {e : Expr}
    (h : DerivesExpr above ts e) (hle : above' ≤ above) : DerivesExpr above' ts e := by
  cases h with
  | operand h => exact .operand h
  | binary hop hlevel hl hr => exact .binary hop (Nat.lt_of_le_of_lt hle hlevel) hl hr

theorem BinaryOp.level_le (op : BinaryOp) : op.level ≤ tightestLevel := by
  cases op <;> decide

/-- No operator of two operands is above the tightest level. -/
theorem DerivesExpr.toOperand {ts : List Token} {e : Expr}
    (h : DerivesExpr tightestLevel ts e) : DerivesOperand ts e := by
  cases h with
  | operand h => exact h
  | binary hop hlevel hl hr => exact absurd hlevel (Nat.not_lt.mpr (BinaryOp.rank_le _))

/-! ## Readings -/

theorem reading_intLiteral {c : Cursor} {t : Token} {rest : List Token}
    (h : c.ahead = t :: rest) : Reading c (intLiteral t (c.past t rest)).2 fun ts =>
      ts = [t] ∧ (intLiteral t (c.past t rest)).1 = t.intExpr := by
  unfold intLiteral
  split
  · rename_i n hn
    refine ⟨.refl, fun _ _ => ⟨[t], h, fun u hu _ => ?_, rfl, ?_⟩⟩
    · rw [List.mem_singleton.mp hu, hn, Option.isSome_some]
    · rw [Token.intExpr, hn]
  · exact Reading.reported rfl .refl

theorem kind_ne_int_of_binaryOp? {k : TokenKind} {op : BinaryOp} (h : binaryOp? k = some op) :
    k ≠ .int := by
  rintro rfl
  exact nomatch h

theorem kind_ne_int_of_unaryOp? {k : TokenKind} {op : UnaryOp} (h : unaryOp? k = some op) :
    k ≠ .int := by
  rintro rfl
  exact nomatch h

/-- A malformed token is not among well-formed ones. -/
theorem reading_malformed {c : Cursor} {t : Token} {rest : List Token} {why : Malformation}
    {D : List Token → Prop} (h : c.ahead = t :: rest) (hk : t.kind = .malformed why) :
    Reading c (c.past t rest) D := by
  refine Reading.of_reported .refl fun hwf => ?_
  have := hwf t (h ▸ List.mem_cons_self ..)
  exact absurd this (by simp [hk, TokenKind.isMalformed])

mutual

/-- An expression that is read without a finding derives from the tokens that were passed. -/
theorem reading_parseExpr (above : Nat) (c : Cursor) :
    Reading c (parseExpr above c).rest (DerivesExpr above · (parseExpr above c).value) := by
  have hle := (parseOperand c).noLonger
  rw [parseExpr]
  -- An operand alone derives at every level, so it can be the left one of any operator.
  refine ((reading_parseOperand c).andThen (reading_parseOperators above _ _)).mono ?_
  rintro _ ⟨us, vs, rfl, hus, hvs⟩
  exact hvs us (.operand hus) fun _ _ _ => .operand hus
termination_by 5 * c.ahead.length + 3
decreasing_by all_goals omega

/-- Behind a left operand that derives at the level of the next operator, reading on derives
the whole. -/
theorem reading_parseOperators (above : Nat) (left : Expr) (c : Cursor) :
    Reading c (parseOperators above left c).rest fun ts => ∀ pre, DerivesExpr above pre left →
      (∀ op, binaryOp? c.kind = some op → above < op.level →
        DerivesExpr (op.level - 1) pre left) →
      DerivesExpr above (pre ++ ts) (parseOperators above left c).value := by
  have stay : Reading c c fun ts => ∀ pre, DerivesExpr above pre left →
      (∀ op, binaryOp? c.kind = some op → above < op.level →
        DerivesExpr (op.level - 1) pre left) → DerivesExpr above (pre ++ ts) left := by
    refine (Reading.here c).mono ?_
    rintro _ rfl pre hpre -
    rwa [List.append_nil]
  rw [parseOperators]
  split
  · exact stay
  · rename_i t rest heq
    have hkind : c.kind = t.kind := kind_of_ahead heq
    split
    · exact stay
    · rename_i op hop
      split
      · rename_i hlevel
        have hlt := Cursor.length_past_lt heq
        have hle := (parseExpr op.level (c.past t rest)).noLonger
        refine (((Reading.past heq (kind_ne_int_of_binaryOp? hop)).andThen
          (reading_parseExpr op.level _)).andThen (reading_parseOperators above _ _)).mono ?_
        rintro _ ⟨_, vs, rfl, ⟨_, us, rfl, rfl, hright⟩, hvs⟩ pre hpre hleft
        have hbinary : ∀ level, level < op.level → DerivesExpr level (pre ++ t :: us)
            (.binary op left (parseExpr op.level (c.past t rest)).value
              (left.span.merge (parseExpr op.level (c.past t rest)).value.span)) :=
          fun level hlevel' =>
            .binary (binaryOp?_eq_some_iff.mp hop) (op.level_eq_rank ▸ hlevel')
              (op.level_eq_rank ▸ hleft op (hkind ▸ hop) hlevel) (op.level_eq_rank ▸ hright)
        -- The next operator binds no tighter than `op`, so the whole is its left operand.
        have hnext := (stops_parseExpr op.level (c.past t rest)).operator
        have := hvs (pre ++ t :: us) (hbinary above hlevel) fun op' hop' habove =>
          hbinary _ (by have := hnext op' hop'; omega)
        simpa using this
      · exact stay
termination_by 5 * c.ahead.length
decreasing_by all_goals omega

theorem reading_parseOperand (c : Cursor) :
    Reading c (parseOperand c).rest (DerivesOperand · (parseOperand c).value) := by
  have hle := (parsePrimary c).noLonger
  rw [parseOperand]
  refine ((reading_parsePrimary c).andThen (reading_parseIndexes _ _)).mono ?_
  rintro _ ⟨us, vs, rfl, hprimary | ⟨hoperand, hkind⟩, hindexes, hnone⟩
  · exact .indexed (hindexes us (.primary hprimary))
  · -- No index stands behind a prefix operator with its operand.
    obtain ⟨rfl, heq⟩ := hnone hkind
    rw [List.append_nil]
    exact heq ▸ hoperand
termination_by 5 * c.ahead.length + 2
decreasing_by all_goals omega

/-- Indexes that are read without a finding derive behind whatever they stand behind. -/
theorem reading_parseIndexes (base : Expr) (c : Cursor) :
    Reading c (parseIndexes base c).rest fun ts =>
      (∀ pre, DerivesIndexed pre base →
        DerivesIndexed (pre ++ ts) (parseIndexes base c).value) ∧
      (c.kind ≠ .mark .leftBracket → ts = [] ∧ (parseIndexes base c).value = base) := by
  have stay : Reading c c fun ts =>
      (∀ pre, DerivesIndexed pre base → DerivesIndexed (pre ++ ts) base) ∧
      (c.kind ≠ .mark .leftBracket → ts = [] ∧ base = base) := by
    refine (Reading.here c).mono ?_
    rintro _ rfl
    exact ⟨fun pre hpre => by rwa [List.append_nil], fun _ => ⟨rfl, rfl⟩⟩
  rw [parseIndexes]
  split
  · exact stay
  · rename_i t rest heq
    split
    · rename_i hkind
      have hlt := Cursor.length_past_lt heq
      have hle := (parseExpr 0 (c.past t rest)).noLonger
      have hle' := (parseExpr 0 (c.past t rest)).rest.length_expect (.mark .rightBracket)
      refine ((((Reading.past heq (by simp [hkind])).andThen (reading_parseExpr 0 _)).andThen
        (reading_expect _ .rightBracket)).andThen (reading_parseIndexes _ _)).mono ?_
      rintro _ ⟨_, vs, rfl, ⟨_, _, rfl, ⟨_, us, rfl, rfl, hposition⟩, right, rfl, hright,
        hspan⟩, hindexes, -⟩
      refine ⟨fun pre hpre => ?_, fun hne => absurd (hkind ▸ kind_of_ahead heq) hne⟩
      -- The base with this index is what the next index applies to.
      have := hindexes (pre ++ t :: us ++ [right])
        (hspan ▸ .index hpre hkind hposition hright)
      simpa using this
    · exact stay
termination_by 5 * c.ahead.length
decreasing_by all_goals omega

/-- What is read is a primary expression, or a prefix operator with its operand and then no
index. -/
theorem reading_parsePrimary (c : Cursor) : Reading c (parsePrimary c).rest fun ts =>
    DerivesPrimary ts (parsePrimary c).value ∨ (DerivesOperand ts (parsePrimary c).value ∧
      (parsePrimary c).rest.kind ≠ .mark .leftBracket) := by
  rw [parsePrimary]
  split
  · exact Reading.missing .refl
  · rename_i t rest heq
    have hlt := Cursor.length_past_lt heq
    -- Literals and names that are one token, and no integer.
    have single : ∀ {e : Expr}, t.kind ≠ .int → DerivesPrimary [t] e →
        Reading c (c.past t rest) fun ts => DerivesPrimary ts e ∨
          (DerivesOperand ts e ∧ (c.past t rest).kind ≠ .mark .leftBracket) := by
      intro e hkind h
      refine (Reading.past heq hkind).mono ?_
      rintro _ rfl
      exact .inl h
    split
    · rename_i op hop
      refine ((Reading.past heq (kind_ne_int_of_unaryOp? hop)).andThen
        (reading_parseExpr tightestLevel _)).mono ?_
      rintro _ ⟨_, us, rfl, rfl, hoperand⟩
      exact .inr ⟨.unary (unaryOp?_eq_some_iff.mp hop) hoperand.toOperand,
        (stops_parseExpr _ _).index⟩
    · split
      · rename_i hkind
        refine (reading_intLiteral heq).mono ?_
        rintro _ ⟨rfl, hvalue⟩
        have hint := DerivesPrimary.int hkind
        rw [← hvalue] at hint
        exact .inl hint
      · rename_i hkind
        exact single (by simp [hkind]) (.str hkind)
      · rename_i hkind
        exact single (by simp [hkind]) (.true hkind)
      · rename_i hkind
        exact single (by simp [hkind]) (.false hkind)
      · rename_i hkind
        refine (((Reading.past heq (by simp [hkind])).andThen (reading_parseExpr 0 _)).andThen
          (reading_expect _ .rightParen)).mono ?_
        rintro _ ⟨_, _, rfl, ⟨_, us, rfl, rfl, hinner⟩, right, rfl, hright, -⟩
        exact .inl (.paren hkind hinner hright)
      · rename_i hkind
        refine ((Reading.past heq (by simp [hkind])).andThen
          (reading_parseItems .rightBracket _)).mono ?_
        rintro _ ⟨_, _, rfl, rfl, us, right, rfl, hitems, hright, hspan⟩
        have hlist := DerivesPrimary.list hkind hitems hright
        rw [← hspan] at hlist
        exact .inl hlist
      · rename_i hkind
        split
        · rename_i hleft
          have hle := (c.past t rest).length_advance
          refine (((Reading.past heq (by simp [hkind])).andThen
            (Reading.advance hleft nofun nofun)).andThen
            (reading_parseItems .rightParen _)).mono ?_
          rintro _ ⟨_, _, rfl, ⟨_, _, rfl, rfl, left, rfl, hkind', -⟩, us, right, rfl, hargs,
            hright, hspan⟩
          have hcall := DerivesPrimary.call hkind hkind' hargs hright
          rw [← hspan] at hcall
          exact .inl (by simpa [Token.ident] using hcall)
        · exact single (by simp [hkind]) (.name hkind)
      · rename_i hkind
        exact reading_malformed heq hkind
      · split
        · exact Reading.missing .refl
        · exact Reading.missing (reports_advance _)
termination_by 5 * c.ahead.length + 1
decreasing_by all_goals omega

theorem reading_parseItems (close : Mark) (c : Cursor) :
    Reading c (parseItems (.mark close) c).rest fun ts => ∃ us right, ts = us ++ [right] ∧
      DerivesItems us (parseItems (.mark close) c).value ∧ right.kind = .mark close ∧
      (parseItems (.mark close) c).rest.behind = right.span := by
  rw [parseItems]
  split
  · rename_i hkind
    refine (Reading.advance hkind nofun nofun).mono ?_
    rintro _ ⟨right, rfl, hright, hspan⟩
    exact ⟨[], right, rfl, .none, hright, hspan⟩
  · refine (reading_parseItemsFrom close c).mono ?_
    rintro _ ⟨us, right, rfl, hitems, hright, hspan⟩
    exact ⟨us, right, rfl, .some hitems, hright, hspan⟩
termination_by 5 * c.ahead.length + 5
decreasing_by all_goals omega

theorem reading_parseItemsFrom (close : Mark) (c : Cursor) :
    Reading c (parseItemsFrom (.mark close) c).rest fun ts => ∃ us right, ts = us ++ [right] ∧
      DerivesItemsFrom us (parseItemsFrom (.mark close) c).value ∧ right.kind = .mark close ∧
      (parseItemsFrom (.mark close) c).rest.behind = right.span := by
  have hle := (parseExpr 0 c).noLonger
  have last : Reading c ((parseExpr 0 c).rest.expect (.mark close)) fun ts =>
      ∃ us right, ts = us ++ [right] ∧ DerivesItemsFrom us [(parseExpr 0 c).value] ∧
        right.kind = .mark close ∧
        ((parseExpr 0 c).rest.expect (.mark close)).behind = right.span := by
    refine ((reading_parseExpr 0 c).andThen (reading_expect _ close)).mono ?_
    rintro _ ⟨us, _, rfl, hitem, right, rfl, hright, hspan⟩
    exact ⟨us, right, rfl, .last hitem, hright, hspan⟩
  rw [parseItemsFrom]
  dsimp only
  split
  · rename_i t rest heq
    have hlt := Cursor.length_past_lt heq
    split
    · rename_i hcomma
      refine (((reading_parseExpr 0 c).andThen
        (Reading.past heq (by simp [hcomma]))).andThen (reading_parseItemsFrom close _)).mono ?_
      rintro _ ⟨_, _, rfl, ⟨us, _, rfl, hitem, rfl⟩, vs, right, rfl, hitems, hright, hspan⟩
      exact ⟨us ++ t :: vs, right, by simp, .comma hitem hcomma hitems, hright, hspan⟩
    · exact last
  · exact last
termination_by 5 * c.ahead.length + 4
decreasing_by all_goals omega

end

end LineQuery.Syntax
