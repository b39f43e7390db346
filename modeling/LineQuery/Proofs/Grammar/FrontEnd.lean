import LineQuery.Proofs.Grammar.DocumentDerived
import LineQuery.Proofs.Grammar.DocumentReading
import LineQuery.Proofs.Grammar.Placement
import LineQuery.Proofs.Grammar.Whole

/-! # What the front end accepts

A text is read without a finding if and only if no token of it is malformed, its integers fit
in 64 bits and its tokens derive a program. Then what is read is whole and the only program
that derives.
-/

namespace LineQuery.Syntax

open Cursor
open LineQuery.Text (encodeUtf8)

/-! ## Derived trees are whole -/

/-- A token that stands for what it should: an integer fits, and a name is not the placeholder
for a missing one. -/
structure Token.Usable (t : Token) : Prop where
  fits : t.Fits
  present : t.kind = .ident → t.ident.Present

/-- A number that fits in 64 bits leaves no hole. -/
theorem Token.Usable.whole_intExpr {t : Token} (h : t.Usable) (hkind : t.kind = .int) :
    t.intExpr.Whole := by
  obtain ⟨n, hn⟩ := Option.isSome_iff_exists.mp (h.fits hkind)
  rw [Token.intExpr, hn]
  trivial

mutual

/-- No part is missing in an expression that derives from usable tokens. -/
theorem DerivesExpr.whole {above : Nat} {ts : List Token} {e : Expr} :
    DerivesExpr above ts e → (∀ t ∈ ts, t.Usable) → e.Whole
  | .operand h, hts => h.whole hts
  | .binary _ _ hl hr, hts => by
    simp only [List.forall_mem_append, List.forall_mem_cons] at hts
    exact ⟨hl.whole hts.1, hr.whole hts.2.2⟩

theorem DerivesOperand.whole {ts : List Token} {e : Expr} :
    DerivesOperand ts e → (∀ t ∈ ts, t.Usable) → e.Whole
  | .indexed h, hts => h.whole hts
  | .unary _ h, hts => h.whole (List.forall_mem_cons.mp hts).2

theorem DerivesIndexed.whole {ts : List Token} {e : Expr} :
    DerivesIndexed ts e → (∀ t ∈ ts, t.Usable) → e.Whole
  | .primary h, hts => h.whole hts
  | .index hbase _ hposition _, hts => by
    simp only [List.forall_mem_append, List.forall_mem_cons] at hts
    exact ⟨hbase.whole hts.1.1, hposition.whole hts.1.2.2⟩

theorem DerivesPrimary.whole {ts : List Token} {e : Expr} :
    DerivesPrimary ts e → (∀ t ∈ ts, t.Usable) → e.Whole
  | .int h, hts => (hts _ (List.mem_singleton_self _)).whole_intExpr h
  | .str _, _ => trivial
  | .true _, _ => trivial
  | .false _, _ => trivial
  | .name h, hts => (hts _ (List.mem_singleton_self _)).present h
  | .paren _ h _, hts => by
    simp only [List.forall_mem_append, List.forall_mem_cons] at hts
    exact h.whole hts.1.2
  | .list _ h _, hts => by
    simp only [List.forall_mem_append, List.forall_mem_cons] at hts
    exact h.whole hts.1.2
  | .call hname _ h _, hts => by
    simp only [List.forall_mem_append, List.forall_mem_cons] at hts
    exact ⟨hts.1.1.present hname, h.whole hts.1.2.2⟩

theorem DerivesItems.whole {ts : List Token} {items : List Expr} :
    DerivesItems ts items → (∀ t ∈ ts, t.Usable) → Expr.WholeAll items
  | .none, _ => trivial
  | .some h, hts => h.whole hts

theorem DerivesItemsFrom.whole {ts : List Token} {items : List Expr} :
    DerivesItemsFrom ts items → (∀ t ∈ ts, t.Usable) → Expr.WholeAll items
  | .last h, hts => ⟨h.whole hts, trivial⟩
  | .comma h _ hitems, hts => by
    simp only [List.forall_mem_append, List.forall_mem_cons] at hts
    exact ⟨h.whole hts.1, hitems.whole hts.2.2⟩

end

theorem DerivesRange.whole {ts : List Token} {clause : FromClause} (h : DerivesRange ts clause)
    (hts : ∀ t ∈ ts, t.Usable) : clause.Whole := by
  cases h with
  | plain hx _ he =>
    simp only [List.forall_mem_cons] at hts
    exact ⟨hts.1.present hx, nofun, he.whole hts.2.2⟩
  | indexed hx _ hi _ he =>
    simp only [List.forall_mem_cons] at hts
    refine ⟨hts.1.present hx, ?_, he.whole hts.2.2.2.2⟩
    rintro _ ⟨⟩
    exact hts.2.2.1.present hi

/-- Nothing is missing in a clause that derives from usable tokens. -/
theorem DerivesClause.whole {ts : List Token} {clause : Clause} (h : DerivesClause ts clause)
    (hts : ∀ t ∈ ts, t.Usable) : clause.Whole := by
  cases h with
  | range _ h => exact h.whole (List.forall_mem_cons.mp hts).2
  | filter _ h | skip _ h | take _ h => exact h.whole (List.forall_mem_cons.mp hts).2
  | bind _ hx _ h =>
    simp only [List.forall_mem_cons] at hts
    exact ⟨hts.2.1.present hx, h.whole hts.2.2.2⟩

/-- Nothing is missing in the clauses and the `select` that derive from usable tokens. -/
theorem DerivesBody.whole {ts : List Token} {clauses : List Clause} {e : Expr}
    (h : DerivesBody ts clauses e) (hts : ∀ t ∈ ts, t.Usable) :
    (∀ clause ∈ clauses, clause.Whole) ∧ e.Whole := by
  induction h with
  | select _ h => exact ⟨nofun, h.whole (List.forall_mem_cons.mp hts).2⟩
  | clause h _ ih =>
    obtain ⟨hts, hts'⟩ := List.forall_mem_append.mp hts
    exact ⟨List.forall_mem_cons.mpr ⟨h.whole hts, (ih hts').1⟩, (ih hts').2⟩

theorem DerivesParamsFrom.whole {ts : List Token} {params : List Ident}
    (h : DerivesParamsFrom ts params) (hts : ∀ t ∈ ts, t.Usable) :
    ∀ id ∈ params, id.Present := by
  induction h with
  | last hx => exact List.forall_mem_singleton.mpr ((hts _ (List.mem_singleton_self _)).present hx)
  | comma hx _ _ ih =>
    simp only [List.forall_mem_cons] at hts
    exact List.forall_mem_cons.mpr ⟨hts.1.present hx, ih hts.2.2⟩

/-- Nothing is missing in an entry that derives from usable tokens. -/
theorem DerivesEntry.whole {ts : List Token} {e : Entry} (h : DerivesEntry ts e)
    (hts : ∀ t ∈ ts, t.Usable) : e.Whole := by
  obtain ⟨hx, _, hparams, _, _, hquery, _⟩ := h
  simp only [List.forall_mem_append, List.forall_mem_cons] at hts
  obtain ⟨⟨⟨hname, -, hts⟩, -, -, hts'⟩, -⟩ := hts
  refine ⟨hname.present hx, ?_, ?_⟩
  · cases hparams with
    | none => exact nofun
    | some h => exact h.whole hts
  · obtain ⟨_, hrange, hbody⟩ := hquery
    simp only [List.forall_mem_append, List.forall_mem_cons] at hts'
    obtain ⟨hclauses, hselect⟩ := hbody.whole hts'.2
    exact ⟨hrange.whole hts'.1.2, hclauses, hselect⟩

/-- From usable tokens only whole programs derive. -/
theorem DerivesDocument.whole {ts : List Token} {d : Document} (h : DerivesDocument ts d)
    (hts : ∀ t ∈ ts, t.Usable) : d.Whole := by
  induction h with
  | nil => exact ⟨nofun, nofun⟩
  | use _ hx _ _ ih =>
    simp only [List.forall_mem_cons] at hts
    obtain ⟨huses, hentries⟩ := ih hts.2.2.2
    exact ⟨List.forall_mem_cons.mpr ⟨hts.2.1.present hx, huses⟩, hentries⟩
  | entry h _ ih =>
    obtain ⟨hts, hts'⟩ := List.forall_mem_append.mp hts
    obtain ⟨huses, hentries⟩ := ih hts'
    exact ⟨huses, List.forall_mem_cons.mpr ⟨h.whole hts, hentries⟩⟩

/-! ## Findings -/

/-- A token is reported exactly if it is malformed. -/
theorem finding?_eq_none_iff (t : Token) :
    t.finding? = none ↔ t.kind.isMalformed = false := by
  unfold Token.finding?
  cases h : t.kind <;> simp [TokenKind.isMalformed]

/-- No finding is one of the tokens or of the declarations. -/
theorem parse_findings_eq_nil_iff (text : String) : (parse text).2 = [] ↔
    (∀ t ∈ tokens text, t.kind.isMalformed = false) ∧
    (parseDocument (.start (tokens text) text.utf8ByteSize)).rest.findings = [] := by
  simp only [parse, List.append_eq_nil_iff, List.filterMap_eq_nil_iff, finding?_eq_none_iff,
    List.reverse_eq_nil_iff]

/-- All that is reported about a text is an error. -/
theorem severity_of_parse {text : String} {f : Finding} (h : f ∈ (parse text).2) :
    f.severity = .error := by
  rcases List.mem_append.mp h with h | h
  · obtain ⟨t, -, ht⟩ := List.mem_filterMap.mp h
    unfold Token.finding? at ht
    split at ht
    · exact Option.some.inj ht ▸ rfl
    · exact nomatch ht
  · have hreports := (reading_parseDocument (.start (tokens text) text.utf8ByteSize)).reports
    exact hreports.severity_eq (List.mem_reverse.mp h)

/-! ## Acceptance -/

/-- An integer of a text fits if it is less than two to the power of 63. -/
theorem fits_iff {text : String} {t : Token} (h : t ∈ tokens text) : t.Fits ↔
    (t.kind = .int → ∃ n, Text.readNat? t.text.toList = some n ∧ n < 2 ^ 63) := by
  refine imp_congr_right fun hkind => ?_
  obtain ⟨n, hn, hfits⟩ := (digits_of_int h hkind).readInt64?
  rw [hfits, hn]
  simp

/-- What is read without a finding derives from the tokens, which are usable. -/
theorem derives_of_parse {text : String} (h : (parse text).2 = []) :
    DerivesDocument (tokens text) (parse text).1 ∧ ∀ t ∈ tokens text, t.Usable := by
  obtain ⟨hwf, hnil⟩ := (parse_findings_eq_nil_iff text).mp h
  obtain ⟨ts, heq, hfits, hd⟩ :=
    (reading_parseDocument (.start (tokens text) text.utf8ByteSize)).derives hwf hnil
  -- Reading goes on to the end, so what derives are all tokens.
  rw [ahead_parseDocument, List.append_nil] at heq
  cases heq
  refine ⟨hd, fun t ht => ⟨hfits t ht, fun hkind span hmissing => ?_⟩⟩
  exact (word_of_ident ht hkind).ne_missing (congrArg Ident.name hmissing)

/-- Well-formed tokens that fit and derive a program are read as it, without a finding. -/
theorem parse_of_derives {text : String} {d : Document}
    (hwf : ∀ t ∈ tokens text, t.kind.isMalformed = false) (hfits : ∀ t ∈ tokens text, t.Fits)
    (hd : DerivesDocument (tokens text) d) : (parse text).2 = [] ∧ (parse text).1 = d := by
  have hread := hd.read (c := .start (tokens text) text.utf8ByteSize) hfits rfl
  obtain ⟨hvalue, hrest⟩ := Prod.mk.inj hread
  refine ⟨(parse_findings_eq_nil_iff text).mpr ⟨hwf, ?_⟩, hvalue⟩
  rw [hrest]
  rfl

/-- A text of fewer bytes than a word of 32 bits can count is read without a finding exactly if its
tokens are well-formed, its integers fit in 64 bits with a sign and its tokens derive a program.
What is read then is whole and the tree of every derivation of the tokens. The tokens are those that
words pick out of the text. -/
theorem parse_accepts_grammar {text : String} (hsize : (encodeUtf8 text).length < UInt32.size) :
    ((parse text).2 = [] ↔ (∀ t ∈ tokens text, t.kind.isMalformed = false) ∧
      (∀ t ∈ tokens text, t.kind = .int →
        ∃ n, Text.readNat? t.text.toList = some n ∧ n < 2 ^ 63) ∧
      ∃ d, DerivesDocument (tokens text) d) ∧
    ((parse text).2 = [] → (parse text).1.Whole ∧
      ∀ d, DerivesDocument (tokens text) d ↔ d = (parse text).1) ∧
    ∀ t ∈ tokens text, t.PickedOut text := by
  have hfits : (∀ t ∈ tokens text, t.Fits) ↔ ∀ t ∈ tokens text, t.kind = .int →
      ∃ n, Text.readNat? t.text.toList = some n ∧ n < 2 ^ 63 :=
    forall₂_congr fun t ht => fits_iff ht
  rw [← hfits]
  refine ⟨⟨fun h => ?_, fun ⟨hwf, hfits, d, hd⟩ => (parse_of_derives hwf hfits hd).1⟩, fun h => ?_,
    fun t => pickedOut_of_token hsize⟩
  · obtain ⟨hd, husable⟩ := derives_of_parse h
    exact ⟨((parse_findings_eq_nil_iff text).mp h).1, fun t ht => (husable t ht).fits, _, hd⟩
  · obtain ⟨hd, husable⟩ := derives_of_parse h
    -- Every derivation is read as its tree, and what is read is one tree.
    refine ⟨hd.whole husable, fun d => ⟨fun hd' => ?_, fun heq => heq ▸ hd⟩⟩
    have hwf := ((parse_findings_eq_nil_iff text).mp h).1
    exact (parse_of_derives hwf (fun t ht => (husable t ht).fits) hd').2.symm

/-- The query that copies its lines is read whole and derives from its tokens. -/
theorem parse_accepts_copy :
    let text := "query(lines, args) \x7b from l in lines select l \x7d"
    (encodeUtf8 text).length < UInt32.size ∧ (parse text).2 = [] ∧ (parse text).1.Whole ∧
      DerivesDocument (tokens text) (parse text).1 := by
  intro text
  have hsize : (encodeUtf8 text).length < UInt32.size := by decide +kernel
  have hread : (parse text).2 = [] := by decide +kernel
  obtain ⟨-, htree, -⟩ := parse_accepts_grammar hsize
  obtain ⟨hwhole, hderives⟩ := htree hread
  exact ⟨hsize, hread, hwhole, (hderives _).mpr rfl⟩

end LineQuery.Syntax
