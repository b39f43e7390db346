import LineQuery.Proofs.Findings
import LineQuery.Proofs.Grammar.Derivation

/-! # What reading a part says of the tokens

Reading a part of a program either reports something or has read tokens that derive the part.
`Reading c d D` states this for a part read from the cursor `c` up to `d`: no finding is taken
back, and if the tokens are well-formed and there is no finding at `d`, then the tokens
between `c` and `d` obey `D`. Readings compose one after the other.
-/

namespace LineQuery.Syntax

/-- A token that is no integer or one that fits in 64 bits. -/
def Token.Fits (t : Token) : Prop :=
  t.kind = .int → (Text.readInt64? t.text.toList).isSome = true

theorem Token.fits_of_kind_ne {t : Token} (h : t.kind ≠ .int) : t.Fits :=
  fun hint => absurd hint h

namespace Parsed

variable {α β : Type} {c d : Cursor}

@[simp] theorem value_since (p : Parsed α d) (h : d.ahead.length ≤ c.ahead.length) :
    (p.since h).value = p.value := rfl

@[simp] theorem value_map (f : α → β) (p : Parsed α c) : (p.map f).value = f p.value := rfl

end Parsed

namespace Cursor

/-! ## Findings -/

/-- Reading from `c` up to `d` takes no finding back. -/
abbrev Reports (c d : Cursor) : Prop :=
  AddsErrors c.findings d.findings

/-- A parser adds errors and takes nothing back. -/
theorem reports_report (c : Cursor) (code : Code) (message : String) (span : Span)
    (h : code.category = .error) : Reports c (c.report code message span) :=
  .cons (by rw [Finding.severity, h])

theorem reports_expected (c : Cursor) (what : String) : Reports c (c.expected what) := by
  unfold expected
  split
  · exact .refl
  · exact reports_report c _ _ _ rfl

@[simp] theorem findings_advance (c : Cursor) : c.advance.findings = c.findings := by
  unfold advance
  split <;> rfl

theorem reports_advance (c : Cursor) : Reports c c.advance :=
  .of_eq c.findings_advance

theorem reports_eat (c : Cursor) (k : TokenKind) : Reports c (c.eat k) := by
  unfold eat
  split
  · exact c.reports_advance
  · exact .refl

/-- Passing over tokens reports nothing. -/
theorem findings_skipFrom (stop : TokenKind → Bool) : ∀ (ts : List Token) (c : Cursor),
    (c.skipFrom stop ts).findings = c.findings
  | [], _ => rfl
  | t :: ts, c => by
      unfold skipFrom
      split
      · rfl
      · exact findings_skipFrom stop ts _

theorem reports_skipTo (c : Cursor) (stop : TokenKind → Bool) : Reports c (c.skipTo stop) :=
  .of_eq (findings_skipFrom stop c.ahead c)

/-! ## Well-formed tokens -/

/-- No token ahead is malformed. -/
def WellFormed (c : Cursor) : Prop :=
  ∀ t ∈ c.ahead, t.kind.isMalformed = false

/-- What is left of well-formed tokens is well formed. -/
theorem WellFormed.of_suffix {c d : Cursor} {ts : List Token} (h : c.WellFormed)
    (heq : c.ahead = ts ++ d.ahead) : d.WellFormed :=
  fun t ht => h t (heq ▸ List.mem_append_right _ ht)

theorem WellFormed.kind {c : Cursor} (h : c.WellFormed) : c.kind.isMalformed = false := by
  unfold Cursor.kind
  split
  · rename_i t rest heq
    exact h t (heq ▸ List.mem_cons_self ..)
  · rfl

/-- What is missing among well-formed tokens is reported. -/
theorem WellFormed.expected_ne_nil {c : Cursor} (h : c.WellFormed) (what : String) :
    (c.expected what).findings ≠ [] := by
  -- Only in front of a malformed token, which was reported itself, is nothing said.
  rw [expected, h.kind]
  exact List.cons_ne_nil _ _

/-- The next token of a kind other than the end is there. -/
theorem ahead_of_kind {c : Cursor} {k : TokenKind} (h : c.kind = k) (hk : k ≠ .eof) :
    ∃ t rest, c.ahead = t :: rest ∧ t.kind = k := by
  unfold Cursor.kind at h
  split at h
  · rename_i t rest heq
    exact ⟨t, rest, heq, h⟩
  · exact absurd h.symm hk

theorem kind_of_ahead {c : Cursor} {t : Token} {rest : List Token} (h : c.ahead = t :: rest) :
    c.kind = t.kind := by
  rw [Cursor.kind, h]

theorem advance_of_ahead {c : Cursor} {t : Token} {rest : List Token}
    (h : c.ahead = t :: rest) : c.advance = c.past t rest := by
  rw [advance, h]

/-! ## Readings -/

/-- From `c` up to `d` the tokens obey `D`, or something has been reported. -/
structure Reading (c d : Cursor) (D : List Token → Prop) : Prop where
  reports : Reports c d
  derives : c.WellFormed → d.findings = [] →
    ∃ ts, c.ahead = ts ++ d.ahead ∧ (∀ t ∈ ts, t.Fits) ∧ D ts

namespace Reading

variable {c d e : Cursor} {D D' : List Token → Prop}

/-- What was read is in particular anything weaker. -/
theorem mono (h : Reading c d D) (hD : ∀ ts, D ts → D' ts) : Reading c d D' := by
  refine ⟨h.reports, fun hwf hnil => ?_⟩
  obtain ⟨ts, heq, hfits, hts⟩ := h.derives hwf hnil
  exact ⟨ts, heq, hfits, hD ts hts⟩

/-- One part read behind another. -/
theorem andThen (h : Reading c d D) (h' : Reading d e D') :
    Reading c e fun ts => ∃ us vs, ts = us ++ vs ∧ D us ∧ D' vs := by
  refine ⟨h.reports.trans h'.reports, fun hwf hnil => ?_⟩
  -- No finding at the end means that there was none in between.
  obtain ⟨us, hus, hfits, hD⟩ := h.derives hwf (h'.reports.nil_of_nil hnil)
  obtain ⟨vs, hvs, hfits', hD'⟩ := h'.derives (hwf.of_suffix hus) hnil
  refine ⟨us ++ vs, by rw [hus, hvs, List.append_assoc], fun t ht => ?_, us, vs, rfl, hD, hD'⟩
  exact (List.mem_append.mp ht).elim (hfits t) (hfits' t)

/-- A part that takes no tokens. -/
theorem here (c : Cursor) : Reading c c (· = []) :=
  ⟨.refl, fun _ _ => ⟨[], rfl, fun _ ht => absurd ht List.not_mem_nil, rfl⟩⟩

/-- A mistake among well-formed tokens that is reported obeys anything. -/
theorem of_reported (h : Reports c d) (hne : c.WellFormed → d.findings ≠ []) :
    Reading c d D :=
  ⟨h, fun hwf hnil => absurd hnil (hne hwf)⟩

/-- The next token, which is no integer. -/
theorem past {t : Token} {rest : List Token} (h : c.ahead = t :: rest) (hk : t.kind ≠ .int) :
    Reading c (c.past t rest) (· = [t]) := by
  refine ⟨.refl, fun _ _ => ⟨[t], h, fun u hu => ?_, rfl⟩⟩
  exact List.mem_singleton.mp hu ▸ Token.fits_of_kind_ne hk

/-- The next token, which is of kind `k`. -/
theorem advance {k : TokenKind} (h : c.kind = k) (hk : k ≠ .int) (hend : k ≠ .eof) :
    Reading c c.advance fun ts => ∃ t, ts = [t] ∧ t.kind = k ∧ c.advance.behind = t.span := by
  obtain ⟨t, rest, heq, hkind⟩ := ahead_of_kind h hend
  rw [advance_of_ahead heq]
  exact (past heq (hkind ▸ hk)).mono fun ts hts => ⟨t, hts, hkind, rfl⟩

end Reading

/-- What goes on behind a missing part among well-formed tokens obeys anything. -/
theorem Reading.missing {c d : Cursor} {what : String} {D : List Token → Prop}
    (h : Reports (c.expected what) d) : Reading c d D :=
  Reading.of_reported ((c.reports_expected what).trans h) fun hwf hnil =>
    hwf.expected_ne_nil what (h.nil_of_nil hnil)

/-- What goes on behind an error obeys anything. -/
theorem Reading.reported {c d : Cursor} {code : Code} {message : String} {span : Span}
    {D : List Token → Prop} (hcode : code.category = .error)
    (h : Reports (c.report code message span) d) : Reading c d D :=
  Reading.of_reported ((c.reports_report code message span hcode).trans h) fun _ hnil =>
    List.cons_ne_nil _ _ (h.nil_of_nil hnil)

/-- A mark that has to come next. -/
theorem reading_expect (c : Cursor) (m : Mark) : Reading c (c.expect (.mark m)) fun ts =>
    ∃ t, ts = [t] ∧ t.kind = .mark m ∧ (c.expect (.mark m)).behind = t.span := by
  unfold expect
  split
  · rename_i h
    exact Reading.advance h nofun nofun
  · exact Reading.missing .refl

/-- A name that has to come next. -/
theorem reading_expectIdent (c : Cursor) : Reading c c.expectIdent.rest fun ts =>
    ∃ t, ts = [t] ∧ t.kind = .ident ∧ c.expectIdent.value = t.ident := by
  unfold expectIdent
  split
  · rename_i t rest heq
    split
    · rename_i hkind
      exact (Reading.past heq (by simp [hkind])).mono fun ts hts => ⟨t, hts, hkind, rfl⟩
    · exact Reading.missing .refl
  · exact Reading.missing .refl

end Cursor

end LineQuery.Syntax
