import LineQuery.Proofs.Grammar.FrontEnd
import LineQuery.Proofs.Scoping.Admissible
import LineQuery.Proofs.Text.Utf8

/-! # Sizes of what is read

Nothing in a tree is longer than the text that it was read from: no name and no string has more
bytes, and no list has more items, since there is a token of the text for each of them.
-/

namespace LineQuery

namespace Text

abbrev size (s : String) : Nat := (encodeUtf8 s).length

theorem size_append (s t : String) : size (s ++ t) = size s + size t := by
  simp [size, encodeUtf8, encodeChars]

/-- A part of a text takes no more bytes than the whole. -/
theorem length_encodeChars_le {cs ds : List Char} (h : cs.Sublist ds) :
    (encodeChars cs).length ≤ (encodeChars ds).length := by
  induction h with
  | slnil => exact Nat.le_refl 0
  | cons c _ ih =>
    rw [length_encodeChars_cons]
    omega
  | cons_cons c _ ih =>
    rw [length_encodeChars_cons, length_encodeChars_cons]
    omega

/-- Each character takes a byte at least. -/
theorem length_le_length_encodeChars (cs : List Char) : cs.length ≤ (encodeChars cs).length := by
  induction cs with
  | nil => exact Nat.le_refl 0
  | cons c cs ih =>
    have hc := c.utf8Size_pos
    rw [length_encodeChars_cons, List.length_cons]
    omega

/-- What an escape stands for is one byte. -/
theorem length_encodeChars_unescape? (c : Char) :
    (encodeChars (unescape? c).toList).length ≤ 1 := by
  unfold unescape?
  split <;> decide

/-- Reading escapes makes a text no longer. -/
theorem length_encodeChars_decodeEscapes (cs : List Char) :
    (encodeChars (decodeEscapes cs)).length ≤ (encodeChars cs).length := by
  induction cs using decodeEscapes.induct with
  | case1 => exact Nat.le_refl 0
  | case2 c cs ih =>
    have hone := length_encodeChars_unescape? c
    have hslash := Char.utf8Size_pos '\\'
    rw [decodeEscapes, encodeChars, List.flatMap_append, List.length_append,
      length_encodeChars_cons, length_encodeChars_cons]
    unfold encodeChars at *
    omega
  | case3 cs hshort ih =>
    cases cs with
    | nil => decide
    | cons c cs => exact (hshort c cs rfl rfl).elim
  | case4 c cs hshort hc ih =>
    have hkept : decodeEscapes (c :: cs) = c :: decodeEscapes cs := by
      rw [decodeEscapes, if_neg hc]
      exact hshort
    rw [hkept, length_encodeChars_cons, length_encodeChars_cons]
    omega

end Text

namespace Syntax

/-! ## Tokens -/

/-- The text of a token has `n` bytes at most. -/
def Token.Within (n : Nat) (t : Token) : Prop := Text.size t.text ≤ n

/-- The text of a token is a part of the text. -/
theorem text_sublist_of_mem_scanFrom : ∀ {cs : List Char} {skip offset : Nat} {t : Token},
    t ∈ scanFrom skip offset cs → t.text.toList.Sublist cs
  | [], skip, offset, t, h => by
    cases skip <;> exact absurd h List.not_mem_nil
  | _ :: cs, skip + 1, _, t, h => (@text_sublist_of_mem_scanFrom cs skip _ t h).cons _
  | c :: cs, 0, offset, t, h => by
    rw [scanFrom] at h
    dsimp only at h
    split at h
    · exact (text_sublist_of_mem_scanFrom h).cons _
    · split at h
      · exact (text_sublist_of_mem_scanFrom h).cons _
      · rcases List.mem_cons.mp h with rfl | h
        · rw [String.toList_ofList]
          exact (List.take_sublist _ cs).cons_cons c
        · exact (text_sublist_of_mem_scanFrom h).cons _

/-- There are no more tokens than characters. -/
theorem length_scanFrom_le : ∀ (cs : List Char) (skip offset : Nat),
    (scanFrom skip offset cs).length ≤ cs.length
  | [], skip, offset => by
    cases skip <;> exact Nat.le_refl 0
  | _ :: cs, skip + 1, _ => Nat.le_succ_of_le (length_scanFrom_le cs skip _)
  | c :: cs, 0, offset => by
    rw [scanFrom]
    dsimp only
    split
    · exact Nat.le_succ_of_le (length_scanFrom_le cs _ _)
    · split
      · exact Nat.le_succ_of_le (length_scanFrom_le cs _ _)
      · exact Nat.succ_le_succ (length_scanFrom_le cs _ _)

/-- A token and its text are no longer than the text that it stands in. -/
theorem within_of_mem_tokens {text : String} {t : Token} (h : t ∈ tokens text) :
    t.Within (Text.size text) :=
  Text.length_encodeChars_le (text_sublist_of_mem_scanFrom h)

/-- A text has as many tokens as bytes at most. -/
theorem length_tokens_le (text : String) : (tokens text).length ≤ Text.size text :=
  Nat.le_trans (length_scanFrom_le _ 0 0) (Text.length_le_length_encodeChars _)

/-! ## Expressions -/

namespace Expr

variable (n : Nat)

mutual

/-- No string in an expression has more than `n` bytes, and no list more than `n` items. -/
def Within : Expr → Prop
  | .int _ _ | .bool _ _ | .name _ | .hole _ => True
  | .str s _ => Text.size s ≤ n
  | .list items _ => items.length ≤ n ∧ AllWithin items
  | .unary _ operand _ => operand.Within
  | .binary _ left right _ => left.Within ∧ right.Within
  | .index base position _ => base.Within ∧ position.Within
  | .call _ args _ => args.length ≤ n ∧ AllWithin args

def AllWithin : List Expr → Prop
  | [] => True
  | e :: es => e.Within ∧ AllWithin es

end

end Expr

variable {n : Nat}

theorem Token.Within.strExpr {t : Token} (h : t.Within n) : t.strExpr.Within n := by
  have hbody : (stringBody t).Sublist t.text.toList :=
    (List.dropLast_sublist _).trans (List.drop_sublist 1 _)
  unfold Token.strExpr Expr.Within Text.size Text.encodeUtf8
  rw [String.toList_ofList]
  exact Nat.le_trans (Text.length_encodeChars_decodeEscapes _)
    (Nat.le_trans (Text.length_encodeChars_le hbody) h)

theorem within_intExpr (t : Token) : t.intExpr.Within n := by
  unfold Token.intExpr
  split <;> trivial

/-- Nothing derives from no tokens. -/
theorem DerivesPrimary.length_pos {ts : List Token} {e : Expr} (h : DerivesPrimary ts e) :
    0 < ts.length := by
  cases h <;> exact Nat.succ_pos _

theorem DerivesIndexed.length_pos {ts : List Token} {e : Expr} (h : DerivesIndexed ts e) :
    0 < ts.length := by
  cases h with
  | primary h => exact h.length_pos
  | index =>
    rw [List.length_append]
    exact Nat.succ_pos _

theorem DerivesOperand.length_pos {ts : List Token} {e : Expr} (h : DerivesOperand ts e) :
    0 < ts.length := by
  cases h with
  | indexed h => exact h.length_pos
  | unary => exact Nat.succ_pos _

theorem DerivesExpr.length_pos {above : Nat} {ts : List Token} {e : Expr}
    (h : DerivesExpr above ts e) : 0 < ts.length := by
  cases h with
  | operand h => exact h.length_pos
  | binary =>
    rw [List.length_append]
    exact Nat.succ_pos _

/-- Each item of a list takes a token at least. -/
theorem DerivesItemsFrom.length_le {ts : List Token} {items : List Expr} :
    DerivesItemsFrom ts items → items.length ≤ ts.length
  | .last h => h.length_pos
  | .comma _ _ hitems => by
    have hrest := hitems.length_le
    simp only [List.length_append, List.length_cons]
    omega

theorem DerivesItems.length_le {ts : List Token} {items : List Expr}
    (h : DerivesItems ts items) : items.length ≤ ts.length := by
  cases h with
  | none => exact Nat.le_refl 0
  | some h => exact h.length_le

mutual

/-- An expression is no larger than the text that it derives from. -/
theorem DerivesExpr.within {above : Nat} {ts : List Token} {e : Expr} :
    DerivesExpr above ts e → (∀ t ∈ ts, t.Within n) → ts.length ≤ n → e.Within n
  | .operand h, hts, hn => h.within hts hn
  | .binary _ _ hl hr, hts, hn => by
    simp only [List.forall_mem_append, List.forall_mem_cons] at hts
    simp only [List.length_append, List.length_cons] at hn
    exact ⟨hl.within hts.1 (by omega), hr.within hts.2.2 (by omega)⟩

theorem DerivesOperand.within {ts : List Token} {e : Expr} :
    DerivesOperand ts e → (∀ t ∈ ts, t.Within n) → ts.length ≤ n → e.Within n
  | .indexed h, hts, hn => h.within hts hn
  | .unary _ h, hts, hn => h.within (List.forall_mem_cons.mp hts).2 (Nat.le_of_succ_le hn)

theorem DerivesIndexed.within {ts : List Token} {e : Expr} :
    DerivesIndexed ts e → (∀ t ∈ ts, t.Within n) → ts.length ≤ n → e.Within n
  | .primary h, hts, hn => h.within hts hn
  | .index hbase _ hposition _, hts, hn => by
    simp only [List.forall_mem_append, List.forall_mem_cons] at hts
    simp only [List.length_append, List.length_cons] at hn
    exact ⟨hbase.within hts.1.1 (by omega), hposition.within hts.1.2.2 (by omega)⟩

theorem DerivesPrimary.within {ts : List Token} {e : Expr} :
    DerivesPrimary ts e → (∀ t ∈ ts, t.Within n) → ts.length ≤ n → e.Within n
  | .int _, _, _ => within_intExpr _
  | .str _, hts, _ => (hts _ (List.mem_singleton_self _)).strExpr
  | .true _, _, _ => trivial
  | .false _, _, _ => trivial
  | .name _, _, _ => trivial
  | .paren _ h _, hts, hn => by
    simp only [List.forall_mem_append, List.forall_mem_cons] at hts
    simp only [List.length_append, List.length_cons] at hn
    exact h.within hts.1.2 (by omega)
  | .list _ h _, hts, hn => by
    have hlength := h.length_le
    simp only [List.forall_mem_append, List.forall_mem_cons] at hts
    simp only [List.length_append, List.length_cons] at hn
    exact ⟨by omega, h.within hts.1.2 (by omega)⟩
  | .call _ _ h _, hts, hn => by
    have hlength := h.length_le
    simp only [List.forall_mem_append, List.forall_mem_cons] at hts
    simp only [List.length_append, List.length_cons] at hn
    exact ⟨by omega, h.within hts.1.2.2 (by omega)⟩

theorem DerivesItems.within {ts : List Token} {items : List Expr} :
    DerivesItems ts items → (∀ t ∈ ts, t.Within n) → ts.length ≤ n → Expr.AllWithin n items
  | .none, _, _ => trivial
  | .some h, hts, hn => h.within hts hn

theorem DerivesItemsFrom.within {ts : List Token} {items : List Expr} :
    DerivesItemsFrom ts items → (∀ t ∈ ts, t.Within n) → ts.length ≤ n → Expr.AllWithin n items
  | .last h, hts, hn => ⟨h.within hts hn, trivial⟩
  | .comma h _ hitems, hts, hn => by
    simp only [List.forall_mem_append, List.forall_mem_cons] at hts
    simp only [List.length_append, List.length_cons] at hn
    exact ⟨h.within hts.1 (by omega), hitems.within hts.2.2 (by omega)⟩

end

/-! ## Clauses -/

/-- No name that a `from` binds has more than `n` bytes, and nothing in its source is longer. -/
structure FromClause.Within (n : Nat) (clause : FromClause) : Prop where
  names : ∀ x ∈ clause.binders, Text.size x ≤ n
  source : clause.source.Within n

structure Clause.Within (n : Nat) (clause : Clause) : Prop where
  names : ∀ x ∈ clause.binders, Text.size x ≤ n
  expr : clause.expr.Within n

theorem DerivesRange.within {ts : List Token} {clause : FromClause} (h : DerivesRange ts clause)
    (hts : ∀ t ∈ ts, t.Within n) (hn : ts.length ≤ n) : clause.Within n := by
  cases h with
  | plain hx _ he =>
    simp only [List.forall_mem_cons] at hts
    simp only [List.length_cons] at hn
    exact ⟨List.forall_mem_singleton.mpr hts.1, he.within hts.2.2 (by omega)⟩
  | indexed hx _ hi _ he =>
    simp only [List.forall_mem_cons] at hts
    simp only [List.length_cons] at hn
    refine ⟨List.forall_mem_cons.mpr ⟨hts.1, List.forall_mem_singleton.mpr hts.2.2.1⟩, ?_⟩
    exact he.within hts.2.2.2.2 (by omega)

/-- Each name that a `from` binds takes a token. -/
theorem DerivesRange.length_binders_le {ts : List Token} {clause : FromClause}
    (h : DerivesRange ts clause) : clause.binders.length ≤ ts.length := by
  cases h <;> simp [FromClause.binders]

/-- A clause is no larger than the text that it derives from. -/
theorem DerivesClause.within {ts : List Token} {clause : Clause} (h : DerivesClause ts clause)
    (hts : ∀ t ∈ ts, t.Within n) (hn : ts.length ≤ n) : clause.Within n := by
  cases h with
  | range _ h =>
    obtain ⟨hnames, hsource⟩ := h.within (List.forall_mem_cons.mp hts).2 (Nat.le_of_succ_le hn)
    exact ⟨hnames, hsource⟩
  | filter _ h | skip _ h | take _ h =>
    exact ⟨nofun, h.within (List.forall_mem_cons.mp hts).2 (Nat.le_of_succ_le hn)⟩
  | bind _ hx _ h =>
    simp only [List.forall_mem_cons] at hts
    simp only [List.length_cons] at hn
    exact ⟨List.forall_mem_singleton.mpr hts.2.1, h.within hts.2.2.2 (by omega)⟩

/-- There is a token for each name that a clause binds, and one more. -/
theorem DerivesClause.length_binders_lt {ts : List Token} {clause : Clause}
    (h : DerivesClause ts clause) : clause.binders.length < ts.length := by
  cases h with
  | range _ h => exact Nat.lt_succ_of_le h.length_binders_le
  | filter | skip | take => exact Nat.succ_pos _
  | bind => simp [Clause.binders]

theorem DerivesBody.within {ts : List Token} {clauses : List Clause} {e : Expr}
    (h : DerivesBody ts clauses e) (hts : ∀ t ∈ ts, t.Within n) (hn : ts.length ≤ n) :
    (∀ clause ∈ clauses, clause.Within n) ∧ e.Within n := by
  induction h with
  | select _ h => exact ⟨nofun, h.within (List.forall_mem_cons.mp hts).2 (Nat.le_of_succ_le hn)⟩
  | clause h _ ih =>
    obtain ⟨hts, hts'⟩ := List.forall_mem_append.mp hts
    rw [List.length_append] at hn
    obtain ⟨hclauses, hselect⟩ := ih hts' (by omega)
    exact ⟨List.forall_mem_cons.mpr ⟨h.within hts (by omega), hclauses⟩, hselect⟩

/-- There is a token for each clause of a query and for each name that they bind. -/
theorem DerivesBody.length_le {ts : List Token} {clauses : List Clause} {e : Expr}
    (h : DerivesBody ts clauses e) :
    clauses.length + (clauses.flatMap Clause.binders).length ≤ ts.length := by
  induction h with
  | select => exact Nat.zero_le _
  | clause h _ ih =>
    have hone := h.length_binders_lt
    rw [List.flatMap_cons]
    simp only [List.length_append, List.length_cons]
    omega

/-! ## Entries and documents -/

theorem DerivesParamsFrom.within {ts : List Token} {params : List Ident}
    (h : DerivesParamsFrom ts params) (hts : ∀ t ∈ ts, t.Within n) :
    ∀ x ∈ params.map (·.name), Text.size x ≤ n := by
  induction h with
  | last hx => exact List.forall_mem_singleton.mpr (hts _ (List.mem_singleton_self _))
  | comma hx _ _ ih =>
    simp only [List.forall_mem_cons] at hts
    exact List.forall_mem_cons.mpr ⟨hts.1, ih hts.2.2⟩

theorem DerivesParams.within {ts : List Token} {params : List Ident}
    (h : DerivesParams ts params) (hts : ∀ t ∈ ts, t.Within n) :
    ∀ x ∈ params.map (·.name), Text.size x ≤ n := by
  cases h with
  | none => exact nofun
  | some h => exact h.within hts

theorem DerivesParams.length_le {ts : List Token} {params : List Ident}
    (h : DerivesParams ts params) : params.length ≤ ts.length := by
  cases h with
  | none => exact Nat.le_refl 0
  | some h =>
    induction h with
    | last => exact Nat.le_refl 1
    | comma _ _ _ ih => exact Nat.succ_le_succ (Nat.le_succ_of_le ih)

/-- No name and no string in an entry has more than `n` bytes, and no list more than `n` items. -/
structure Entry.Within (n : Nat) (e : Entry) : Prop where
  name : Text.size e.name.name ≤ n
  names : ∀ x ∈ e.binders, Text.size x ≤ n
  count : e.binders.length ≤ n
  length : e.query.clauses.length ≤ n
  clauses : ∀ clause ∈ e.query.clauses, clause.Within n
  select : e.query.select.Within n

/-- Each name and each clause of an entry takes a token of its own. -/
theorem DerivesEntry.length_binders_le {ts : List Token} {e : Entry} (h : DerivesEntry ts e) :
    e.binders.length + e.query.clauses.length ≤ ts.length := by
  obtain ⟨_, _, hparams, _, _, ⟨_, hrange, hbody⟩, _⟩ := h
  have hparams := hparams.length_le
  have hrange := hrange.length_binders_le
  have hbody := hbody.length_le
  simp only [Entry.binders, Entry.paramNames, List.length_append, List.length_cons,
    List.length_map]
  omega

theorem DerivesEntry.length_pos {ts : List Token} {e : Entry} (h : DerivesEntry ts e) :
    0 < ts.length := by
  cases h
  exact Nat.succ_pos _

theorem DerivesEntry.within {ts : List Token} {e : Entry} (h : DerivesEntry ts e)
    (hts : ∀ t ∈ ts, t.Within n) (hn : ts.length ≤ n) : e.Within n := by
  have hlengths := h.length_binders_le
  have hcount : e.binders.length ≤ n := by omega
  have hlength : e.query.clauses.length ≤ n := by omega
  obtain ⟨_, _, hparams, _, _, ⟨_, hrange, hbody⟩, _⟩ := h
  simp only [List.forall_mem_append, List.forall_mem_cons] at hts
  obtain ⟨⟨⟨hname, -, hts⟩, -, -, ⟨-, hsource⟩, hts'⟩, -⟩ := hts
  simp only [List.length_append, List.length_cons] at hn
  obtain ⟨hclauses, hselect⟩ := hbody.within hts' (by omega)
  obtain ⟨hnames, -⟩ := hrange.within hsource (by omega)
  refine ⟨hname, ?_, hcount, hlength, hclauses, hselect⟩
  unfold Entry.binders
  simp only [List.forall_mem_append, List.forall_mem_flatMap]
  exact ⟨⟨hparams.within hts, hnames⟩, fun clause hclause => (hclauses clause hclause).names⟩

/-- Nothing in a document is longer than `n`, and neither are its declarations, its entries and the
names that they bind together. -/
structure Document.Within (n : Nat) (d : Document) : Prop where
  uses : d.uses.length ≤ n
  entries : ∀ e ∈ d.entries, e.Within n
  length : d.entries.length ≤ n
  names : (d.entries.flatMap Entry.binders).length ≤ n

/-- A document has no more parts of any kind than tokens. -/
theorem DerivesDocument.length_le {ts : List Token} {d : Document} (h : DerivesDocument ts d) :
    d.uses.length ≤ ts.length ∧ d.entries.length ≤ ts.length ∧
      (d.entries.flatMap Entry.binders).length ≤ ts.length := by
  induction h with
  | nil => exact ⟨Nat.le_refl 0, Nat.le_refl 0, Nat.le_refl 0⟩
  | use _ _ _ _ ih =>
    simp only [Document.addUse, List.length_cons]
    omega
  | entry h _ ih =>
    have hentry := h.length_binders_le
    have hpos := h.length_pos
    simp only [Document.addEntry, List.flatMap_cons, List.length_append, List.length_cons]
    omega

/-- A document is no larger than the text that it derives from. -/
theorem DerivesDocument.within {ts : List Token} {d : Document} (h : DerivesDocument ts d)
    (hts : ∀ t ∈ ts, t.Within n) (hn : ts.length ≤ n) : d.Within n := by
  obtain ⟨huses, hlength, hnames⟩ := h.length_le
  refine ⟨Nat.le_trans huses hn, ?_, Nat.le_trans hlength hn, Nat.le_trans hnames hn⟩
  clear huses hlength hnames
  induction h with
  | nil => exact nofun
  | use _ _ _ _ ih =>
    simp only [List.forall_mem_cons] at hts
    simp only [List.length_cons] at hn
    exact ih hts.2.2.2 (by omega)
  | entry h _ ih =>
    obtain ⟨hts, hts'⟩ := List.forall_mem_append.mp hts
    rw [List.length_append] at hn
    exact List.forall_mem_cons.mpr ⟨h.within hts (by omega), ih hts' (by omega)⟩

/-- Nothing that is read without a finding is longer than the text. -/
theorem within_of_parse {text : String} (h : (parse text).2 = []) :
    (parse text).1.Within (Text.size text) :=
  (derives_of_parse h).1.within (fun _ => within_of_mem_tokens) (length_tokens_le text)

end Syntax

end LineQuery
