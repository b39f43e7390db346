import LineQuery.Proofs.Grammar.Derivation
import LineQuery.Proofs.Grammar.TokenShape
import LineQuery.Proofs.Text.Utf8
import Mathlib.Data.List.Infix

/-! # Where tokens and trees stand

Each token stands in the text at the place that its span says, within one line, and each ends before
the next one starts. The span of an expression starts where its first token does that is not an
opening parenthesis.
-/

namespace LineQuery.Syntax

open LineQuery.Text (byteLength byteLength_append encodeChars encodeChars_append encodeUtf8
  length_encodeChars length_encodeUtf8)

/-! ## Tokens -/

/-- What a token is cut from: a character that starts one and stands behind `before`, and what
stands behind it. -/
structure Token.Stands (t : Token) (offset : Nat) (before : List Char) (c : Char)
    (rest : List Char) : Prop where
  space : isSpace c = false
  kind : t.kind = (lexeme c rest).kind
  text : t.text.toList = c :: rest.take (lexeme c rest).more
  start : t.span.start = offset + byteLength before
  stop : t.span.stop = t.span.start + byteLength t.text.toList

/-- Each token stands in the text at the place that its span says. -/
theorem exists_stands : ∀ {cs : List Char} {skip offset : Nat} {t : Token},
    t ∈ scanFrom skip offset cs → ∃ before c rest, cs = before ++ c :: rest ∧
      t.Stands offset before c rest
  | [], skip, offset, t, h => by
    cases skip <;> exact absurd h List.not_mem_nil
  | c' :: cs, skip + 1, offset, t, h => by
    obtain ⟨before, c, rest, rfl, hstands⟩ := @exists_stands cs skip _ t h
    refine ⟨c' :: before, c, rest, rfl, { hstands with start := ?_ }⟩
    rw [hstands.start, byteLength, Nat.add_assoc]
  | c' :: cs, 0, offset, t, h => by
    rw [scanFrom] at h
    dsimp only at h
    -- a token that is found further on stands behind the first character as well
    have hlater : ∀ skip, t ∈ scanFrom skip (offset + c'.utf8Size) cs → ∃ before c rest,
        c' :: cs = before ++ c :: rest ∧ t.Stands offset before c rest := by
      intro skip ht
      obtain ⟨before, c, rest, rfl, hstands⟩ := exists_stands ht
      refine ⟨c' :: before, c, rest, rfl, { hstands with start := ?_ }⟩
      rw [hstands.start, byteLength, Nat.add_assoc]
    split at h
    · exact hlater _ h
    · rename_i hspace
      split at h
      · exact hlater _ h
      · rcases List.mem_cons.mp h with rfl | h
        · refine ⟨[], c', cs, rfl, ⟨Bool.not_eq_true _ ▸ hspace, rfl, ?_, rfl, ?_⟩⟩
          · rw [String.toList_ofList]
          · rw [String.toList_ofList]
        · exact hlater _ h

section Cut

variable {text : String} {t : Token}

/-- Each token is cut from the text where its span says. -/
theorem exists_cut (h : t ∈ tokens text) : ∃ before rest,
    text.toList = before ++ (t.text.toList ++ rest) ∧
      t.span = ⟨byteLength before, byteLength before + byteLength t.text.toList⟩ := by
  obtain ⟨before, c, rest, hcut, hstands⟩ := exists_stands h
  refine ⟨before, rest.drop (lexeme c rest).more, ?_, ?_⟩
  · rw [hcut, hstands.text, List.cons_append, List.take_append_drop]
  · have hstart : t.span.start = byteLength before := hstands.start.trans (Nat.zero_add _)
    rw [← hstart, ← hstands.stop]

/-- No token goes past the end of the text. -/
theorem stop_le_of_token (h : t ∈ tokens text) : t.span.stop ≤ (encodeUtf8 text).length := by
  obtain ⟨before, rest, hcut, hspan⟩ := exists_cut h
  rw [hspan, length_encodeUtf8, hcut, byteLength_append, byteLength_append]
  exact Nat.add_le_add_left (Nat.le_add_right _ _) _

/-- Tokens start in the text. -/
theorem start_le_of_token (h : t ∈ tokens text) : t.span.start ≤ (encodeUtf8 text).length := by
  obtain ⟨before, rest, hcut, hspan⟩ := exists_cut h
  rw [hspan, length_encodeUtf8, hcut, byteLength_append]
  exact Nat.le_add_right _ _

/-- The bytes of a token are those of the text from one word of 32 bits up to another, and its span
has these two for its ends. -/
def Token.PickedOut (text : String) (t : Token) : Prop :=
  ∃ start stop : UInt32, t.span = ⟨start.toNat, stop.toNat⟩ ∧
    ((encodeUtf8 text).take stop.toNat).drop start.toNat = encodeUtf8 t.text

/-- In a text that is shorter than a word can count, words pick out each token. -/
theorem pickedOut_of_token (hsize : (encodeUtf8 text).length < UInt32.size)
    (h : t ∈ tokens text) : t.PickedOut text := by
  have hfirst : (UInt32.ofNat t.span.start).toNat = t.span.start :=
    UInt32.toNat_ofNat_of_lt' (Nat.lt_of_le_of_lt (start_le_of_token h) hsize)
  have hlast : (UInt32.ofNat t.span.stop).toNat = t.span.stop :=
    UInt32.toNat_ofNat_of_lt' (Nat.lt_of_le_of_lt (stop_le_of_token h) hsize)
  refine ⟨.ofNat t.span.start, .ofNat t.span.stop, by rw [hfirst, hlast], ?_⟩
  obtain ⟨before, rest, hcut, hspan⟩ := exists_cut h
  rw [hfirst, hlast, hspan, encodeUtf8, hcut, encodeChars_append, encodeChars_append,
    ← length_encodeChars, ← length_encodeChars, List.take_length_add_append, List.drop_left,
    List.take_left, encodeUtf8]

end Cut

/-- Tokens that stand one behind another. -/
abbrev InOrder (ts : List Token) : Prop :=
  ts.Pairwise fun t u => t.span.start < u.span.start

/-- The scanner gives tokens from the left to the right. -/
theorem inOrder_scanFrom : ∀ (cs : List Char) (skip offset : Nat), InOrder (scanFrom skip offset cs)
  | [], skip, _ => by cases skip <;> exact .nil
  | c :: cs, skip + 1, offset => inOrder_scanFrom cs skip _
  | c :: cs, 0, offset => by
    rw [scanFrom]
    dsimp only
    split
    · exact inOrder_scanFrom cs _ _
    · split
      · exact inOrder_scanFrom cs _ _
      · refine List.pairwise_cons.mpr ⟨?_, inOrder_scanFrom cs _ _⟩
        intro u hu
        obtain ⟨before, c', rest, -, hstands⟩ := exists_stands hu
        have hsize := c.utf8Size_pos
        rw [hstands.start]
        show offset < _
        omega

/-! ## Tokens in their lines -/

/-- A string ends before its line does. -/
theorem not_mem_take_stringLength (cs : List Char) : '\n' ∉ cs.take (stringLength cs).1 := by
  fun_induction stringLength cs with
  | case1 => exact List.not_mem_nil
  | case2 cs => exact List.not_mem_cons_of_ne_of_not_mem (by decide) List.not_mem_nil
  | case3 c cs hc ih =>
    rw [List.take_succ_cons, List.take_succ_cons, List.mem_cons, List.mem_cons]
    rintro (hslash | hmem | hmem)
    · exact absurd hslash (by decide)
    · exact hc hmem.symm
    · exact ih hmem
  | case4 => exact List.not_mem_nil
  | case5 cs => exact List.not_mem_cons_of_ne_of_not_mem (by decide) List.not_mem_nil
  | case6 c cs _ hc _ ih =>
    rw [List.take_succ_cons, List.mem_cons]
    rintro (hmem | hmem)
    · exact hc hmem.symm
    · exact ih hmem

/-- No token goes past the end of its line. -/
theorem not_mem_take_lexeme (c : Char) (cs : List Char) :
    '\n' ∉ cs.take (lexeme c cs).more := by
  have hword : '\n' ∉ cs.take (cs.takeWhile isWordChar).length := by
    rw [take_length_takeWhile]
    intro hmem
    have hchar := List.all_eq_true.mp (List.all_takeWhile (p := isWordChar) (l := cs)) _ hmem
    exact absurd hchar (by decide)
  have hform := lexemeForm c cs
  generalize lexeme c cs = found at hform ⊢
  cases hform with
  | word => exact hword
  | number => exact hword
  | string => exact not_mem_take_stringLength cs
  | pair hcs hpair =>
    rw [hcs, List.take_succ_cons, List.take_zero, List.mem_singleton]
    rintro rfl
    rw [Mark.ofPair?_newline] at hpair
    cases hpair
  | single => exact List.not_mem_nil
  | unexpected => exact List.not_mem_nil

/-! ## Expressions -/

/-- The first of some tokens that is not an opening parenthesis. -/
def leading? (ts : List Token) : Option Token :=
  ts.find? fun t => decide (t.kind ≠ .mark .leftParen)

theorem leading?_cons {t : Token} (h : t.kind ≠ .mark .leftParen) (ts : List Token) :
    leading? (t :: ts) = some t :=
  List.find?_cons_of_pos (decide_eq_true h)

/-- Parentheses do not count when an expression is said to start. -/
theorem leading?_leftParen {t : Token} (h : t.kind = .mark .leftParen) (ts : List Token) :
    leading? (t :: ts) = leading? ts :=
  List.find?_cons_of_neg (by rw [h]; decide)

theorem leading?_append {t : Token} {ts : List Token} (h : leading? ts = some t)
    (us : List Token) : leading? (ts ++ us) = some t := by
  have hfound : ts.find? _ = some t := h
  rw [leading?, List.find?_append, hfound, Option.some_or]

/-- An expression starts where the first of its tokens does that is not an opening parenthesis. -/
def Expr.StartsIn (e : Expr) (ts : List Token) : Prop :=
  ∃ t, leading? ts = some t ∧ e.span.start = t.span.start

/-- Where an expression starts, one of its tokens does. -/
theorem Expr.StartsIn.exists_mem {e : Expr} {ts : List Token} (h : e.StartsIn ts) :
    ∃ t ∈ ts, e.span.start = t.span.start := by
  obtain ⟨t, ht, hstart⟩ := h
  exact ⟨t, List.mem_of_find?_eq_some ht, hstart⟩

theorem Expr.StartsIn.append {e : Expr} {ts : List Token} (h : e.StartsIn ts)
    (us : List Token) : e.StartsIn (ts ++ us) := by
  obtain ⟨t, ht, hstart⟩ := h
  exact ⟨t, leading?_append ht us, hstart⟩

theorem Token.span_intExpr (t : Token) : t.intExpr.span = t.span := by
  unfold intExpr
  split
  · rfl
  · rfl

/-- The span of two parts starts where the first one does. -/
theorem start_merge {a b : Span} (h : a.start ≤ b.start) : (a.merge b).start = a.start :=
  Nat.min_eq_left h

mutual

/-- The span of an expression starts where the first token behind its parentheses does. -/
theorem DerivesExpr.startsIn {above : Nat} {ts : List Token} {e : Expr} :
    DerivesExpr above ts e → InOrder ts → e.StartsIn ts
  | .operand h, hts => h.startsIn hts
  | @DerivesExpr.binary _ _ _ t us _ _ _ _ hl hr, hts => by
    obtain ⟨hleft, hright, hbefore⟩ := List.pairwise_append.mp hts
    have hstarts := hl.startsIn hleft
    -- the left operand starts before the right one, and so does the merged span
    obtain ⟨u, hu, hufirst⟩ := (hr.startsIn (List.pairwise_cons.mp hright).2).exists_mem
    obtain ⟨t', ht', htfirst⟩ := hstarts.exists_mem
    have hlt := hbefore t' ht' u (List.mem_cons_of_mem _ hu)
    obtain ⟨first, hfirst, hstart⟩ := hstarts.append (t :: us)
    refine ⟨first, hfirst, ?_⟩
    rw [← hstart]
    exact start_merge (by omega)

theorem DerivesOperand.startsIn {ts : List Token} {e : Expr} :
    DerivesOperand ts e → InOrder ts → e.StartsIn ts
  | .indexed h, hts => h.startsIn hts
  | @DerivesOperand.unary op t _ _ hop h, hts => by
    obtain ⟨hbefore, hrest⟩ := List.pairwise_cons.mp hts
    obtain ⟨u, hu, hufirst⟩ := (h.startsIn hrest).exists_mem
    have hlt := hbefore u hu
    have hkind : t.kind ≠ .mark .leftParen := by
      rw [hop]
      cases op <;> exact nofun
    exact ⟨t, leading?_cons hkind _, start_merge (by omega)⟩

theorem DerivesIndexed.startsIn {ts : List Token} {e : Expr} :
    DerivesIndexed ts e → InOrder ts → e.StartsIn ts
  | .primary h, hts => h.startsIn hts
  | @DerivesIndexed.index _ us _ _ left right hbase _ _ _, hts => by
    obtain ⟨hfront, -, hbefore⟩ := List.pairwise_append.mp hts
    have hstarts := hbase.startsIn (List.pairwise_append.mp hfront).1
    obtain ⟨t, ht, htfirst⟩ := hstarts.exists_mem
    have hlt := hbefore t (List.mem_append_left _ ht) right (List.mem_singleton_self _)
    obtain ⟨first, hfirst, hstart⟩ := (hstarts.append (left :: us)).append [right]
    refine ⟨first, hfirst, ?_⟩
    rw [← hstart]
    exact start_merge (by omega)

theorem DerivesPrimary.startsIn {ts : List Token} {e : Expr} :
    DerivesPrimary ts e → InOrder ts → e.StartsIn ts
  | .int (t := t) h, _ => ⟨t, leading?_cons (by rw [h]; decide) _, by rw [t.span_intExpr]⟩
  | .str (t := t) h, _ => ⟨t, leading?_cons (by rw [h]; decide) _, rfl⟩
  | .true (t := t) h, _ => ⟨t, leading?_cons (by rw [h]; decide) _, rfl⟩
  | .false (t := t) h, _ => ⟨t, leading?_cons (by rw [h]; decide) _, rfl⟩
  | .name (t := t) h, _ => ⟨t, leading?_cons (by rw [h]; decide) _, rfl⟩
  | @DerivesPrimary.paren _ _ _ right hleft h _, hts => by
    -- the span is that of the expression within, so the parenthesis is passed over
    obtain ⟨hfront, -, -⟩ := List.pairwise_append.mp hts
    obtain ⟨t, ht, hstart⟩ := (h.startsIn (List.pairwise_cons.mp hfront).2).append [right]
    exact ⟨t, (leading?_leftParen hleft _).trans ht, hstart⟩
  | @DerivesPrimary.list left _ _ right hleft _ _, hts => by
    obtain ⟨-, -, hbefore⟩ := List.pairwise_append.mp hts
    have hlt := hbefore left List.mem_cons_self right (List.mem_singleton_self _)
    exact ⟨left, leading?_cons (by rw [hleft]; decide) _, start_merge (Nat.le_of_lt hlt)⟩
  | @DerivesPrimary.call t _ _ _ right hname _ _ _, hts => by
    obtain ⟨-, -, hbefore⟩ := List.pairwise_append.mp hts
    have hlt := hbefore t List.mem_cons_self right (List.mem_singleton_self _)
    exact ⟨t, leading?_cons (by rw [hname]; decide) _, start_merge (Nat.le_of_lt hlt)⟩

end

/-! ## Entries -/

/-- The parameters of an entry derive from tokens of it, in their order. -/
theorem DerivesEntry.exists_params {ts : List Token} {e : Entry} (h : DerivesEntry ts e) :
    ∃ us, us.Sublist ts ∧ DerivesParams us e.params := by
  cases h with
  | @mk x leftParen ps rightParen leftBrace qs rightBrace _ _ _ _ hparams _ _ _ _ =>
    have hps : ps.Sublist (x :: leftParen :: ps ++ rightParen :: leftBrace :: qs) :=
      (((List.Sublist.refl ps).cons leftParen).cons x).trans (List.sublist_append_left _ _)
    exact ⟨ps, hps.trans (List.sublist_append_left _ _), hparams⟩

/-- The query of an entry derives from tokens of it, in their order. -/
theorem DerivesEntry.exists_query {ts : List Token} {e : Entry} (h : DerivesEntry ts e) :
    ∃ us, us.Sublist ts ∧ DerivesQuery us e.query := by
  cases h with
  | @mk x leftParen ps rightParen leftBrace qs rightBrace _ _ _ _ _ _ _ hquery _ =>
    have hqs : qs.Sublist (x :: leftParen :: ps ++ rightParen :: leftBrace :: qs) :=
      (((List.Sublist.refl qs).cons leftBrace).cons rightParen).trans
        (List.sublist_append_right _ _)
    exact ⟨qs, hqs.trans (List.sublist_append_left _ _), hquery⟩

end LineQuery.Syntax
