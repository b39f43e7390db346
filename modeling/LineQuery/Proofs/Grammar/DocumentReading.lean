import LineQuery.Proofs.Grammar.ExprReading

/-! # What is read as a program

Clauses, queries, entries and whole programs that are read without a finding derive from the
tokens that were read. Every way to go on after a mistake has reported the mistake first.
-/

namespace LineQuery.Syntax

open Cursor

/-! ## Clauses -/

theorem reading_parseIndexName (c : Cursor) : Reading c (parseIndexName c).rest fun ts =>
    (ts = [] ∧ (parseIndexName c).value = none) ∨
    ∃ atWord i, ts = [atWord, i] ∧ atWord.kind = .keyword .atWord ∧ i.kind = .ident ∧
      (parseIndexName c).value = some i.ident := by
  unfold parseIndexName
  split
  · rename_i hkind
    refine ((Reading.advance hkind nofun nofun).andThen (reading_expectIdent _)).mono ?_
    rintro _ ⟨_, _, rfl, ⟨atWord, rfl, hat, -⟩, i, rfl, hi, hvalue⟩
    exact .inr ⟨atWord, i, rfl, hat, hi, by simp [hvalue]⟩
  · exact (Reading.here c).mono fun ts hts => .inl ⟨hts, rfl⟩

/-- Whatever is read as a `from` without a finding derives from the tokens that were passed. -/
theorem reading_parseFrom (c : Cursor) :
    Reading c (parseFrom c).rest (DerivesRange · (parseFrom c).value) := by
  have hnames := (reading_expectIdent c).andThen (reading_parseIndexName c.expectIdent.rest)
  unfold parseFrom
  dsimp only
  split
  · rename_i hin
    refine ((hnames.andThen (Reading.advance hin nofun nofun)).andThen
      (reading_parseExpr 0 _)).mono ?_
    rintro _ ⟨_, ts, rfl, ⟨_, _, rfl, ⟨_, _, rfl, ⟨x, rfl, hx, hvar⟩, hindex⟩, word, rfl,
      hword, -⟩, hsource⟩
    simp only [Parsed.value_since, Parsed.value_map, hvar]
    obtain ⟨rfl, hnone⟩ | ⟨atWord, i, rfl, hat, hi, hsome⟩ := hindex
    · rw [hnone]
      exact .plain hx hword hsource
    · rw [hsome]
      exact .indexed hx hat hi hword hsource
  · -- Without `in` nothing has to be shown of the tokens.
    refine (hnames.andThen (Reading.missing (D := fun _ => False) (reports_skipTo _ _))).mono ?_
    rintro _ ⟨_, _, rfl, -, hfalse⟩
    exact hfalse.elim

theorem reading_parseLet (c : Cursor) : Reading c (parseLet c).rest fun ts =>
    ∀ word, word.kind = .keyword .letWord → DerivesClause (word :: ts) (parseLet c).value := by
  refine (((reading_expectIdent c).andThen (reading_expect _ .assign)).andThen
    (reading_parseExpr 0 _)).mono ?_
  rintro _ ⟨_, us, rfl, ⟨_, _, rfl, ⟨x, rfl, hx, hname⟩, assign, rfl, hassign, -⟩, hvalue⟩
    word hword
  have := DerivesClause.bind hword hx hassign hvalue
  rw [← hname] at this
  exact this

/-- Reading the first `from` without a finding passes its word, and then what it derives from. -/
theorem reading_parseFirstFrom (c : Cursor) : Reading c (parseFirstFrom c).rest fun ts =>
    ∃ word us, ts = word :: us ∧ word.kind = .keyword .fromWord ∧
      DerivesRange us (parseFirstFrom c).value := by
  unfold parseFirstFrom
  split
  · rename_i hkind
    refine ((Reading.advance hkind nofun nofun).andThen (reading_parseFrom _)).mono ?_
    rintro _ ⟨_, us, rfl, ⟨word, rfl, hword, -⟩, hrange⟩
    exact ⟨word, us, rfl, hword, hrange⟩
  · exact Reading.reported rfl (reports_skipTo _ _)

/-- A query that ends without `select` is always reported. -/
theorem reading_noSelect (c : Cursor) (D : List Token → Prop) :
    Reading c (noSelect c).rest D :=
  Reading.reported rfl .refl

/-- A clause read behind its first word, and what follows it in the query. -/
theorem Cursor.Reading.clause {c d e : Cursor} {word : Token} {rest : List Token}
    {clause : Clause} {clauses : List Clause} {select : Expr} (heq : c.ahead = word :: rest)
    (hkind : word.kind ≠ .int)
    (h : Reading (c.past word rest) d fun ts => DerivesClause (word :: ts) clause)
    (h' : Reading d e fun ts => DerivesBody ts clauses select) :
    Reading c e fun ts => DerivesBody ts (clause :: clauses) select := by
  refine (((Reading.past heq hkind).andThen h).andThen h').mono ?_
  rintro _ ⟨_, vs, rfl, ⟨_, us, rfl, rfl, hclause⟩, hbody⟩
  exact .clause hclause hbody

/-- Clauses and a `select` that are read without a finding derive from the tokens passed. -/
theorem reading_parseClauses (c : Cursor) : Reading c (parseClauses c).rest fun ts =>
    DerivesBody ts (parseClauses c).value.1 (parseClauses c).value.2 := by
  rw [parseClauses]
  dsimp only
  split
  · exact reading_noSelect c _
  · rename_i t rest heq
    have hlt := Cursor.length_past_lt heq
    split
    -- a clause behind its first word, and then the clauses behind it
    · rename_i hword
      have hle := (parseFrom (c.past t rest)).noLonger
      exact Reading.clause heq (by simp [hword])
        ((reading_parseFrom _).mono fun _ => .range hword) (reading_parseClauses _)
    · rename_i hword
      have hle := (parseExpr 0 (c.past t rest)).noLonger
      exact Reading.clause heq (by simp [hword])
        ((reading_parseExpr 0 _).mono fun _ => .filter hword) (reading_parseClauses _)
    · rename_i hword
      have hle := (parseLet (c.past t rest)).noLonger
      exact Reading.clause heq (by simp [hword])
        ((reading_parseLet _).mono fun _ h => h t hword) (reading_parseClauses _)
    · rename_i hword
      have hle := (parseExpr 0 (c.past t rest)).noLonger
      exact Reading.clause heq (by simp [hword])
        ((reading_parseExpr 0 _).mono fun _ => .skip hword) (reading_parseClauses _)
    · rename_i hword
      have hle := (parseExpr 0 (c.past t rest)).noLonger
      exact Reading.clause heq (by simp [hword])
        ((reading_parseExpr 0 _).mono fun _ => .take hword) (reading_parseClauses _)
    · rename_i hword
      refine ((Reading.past heq (by simp [hword])).andThen (reading_parseExpr 0 _)).mono ?_
      rintro _ ⟨_, us, rfl, rfl, hselect⟩
      exact .select hword hselect
    · exact reading_noSelect c _
    · -- What starts no clause is reported and passed, and the next clause is looked for.
      have hlt' := length_pastClause_lt heq
      have hrest := reading_parseClauses (c.expected "a query clause").advance.toClause
      exact Reading.missing ((reports_advance _).trans ((reports_skipTo _ _).trans
        hrest.reports))
termination_by c.ahead.length
decreasing_by all_goals omega

theorem reading_parseQuery (c : Cursor) :
    Reading c (parseQuery c).rest (DerivesQuery · (parseQuery c).value) := by
  refine ((reading_parseFirstFrom c).andThen (reading_parseClauses _)).mono ?_
  rintro _ ⟨_, vs, rfl, ⟨word, us, rfl, hword, hrange⟩, hbody⟩
  exact .mk hword hrange hbody

/-! ## Entries -/

theorem reading_parseParamsFrom (c : Cursor) :
    Reading c (parseParamsFrom c).rest (DerivesParamsFrom · (parseParamsFrom c).value) := by
  have hle := c.expectIdent.noLonger
  have last : Reading c c.expectIdent.rest (DerivesParamsFrom · [c.expectIdent.value]) := by
    refine (reading_expectIdent c).mono ?_
    rintro _ ⟨x, rfl, hx, hvalue⟩
    rw [hvalue]
    exact .last hx
  rw [parseParamsFrom]
  dsimp only
  split
  · rename_i t rest heq
    have hlt := Cursor.length_past_lt heq
    split
    · rename_i hcomma
      refine (((reading_expectIdent c).andThen (Reading.past heq (by simp [hcomma]))).andThen
        (reading_parseParamsFrom _)).mono ?_
      rintro _ ⟨_, us, rfl, ⟨_, _, rfl, ⟨x, rfl, hx, hvalue⟩, rfl⟩, hparams⟩
      simp only [Parsed.value_since, Parsed.value_map, hvalue]
      exact .comma hx hcomma hparams
    · exact last
  · exact last
termination_by c.ahead.length
decreasing_by all_goals omega

theorem reading_parseParams (c : Cursor) :
    Reading c (parseParams c).rest (DerivesParams · (parseParams c).value) := by
  unfold parseParams
  split
  · refine (Reading.here c).mono ?_
    rintro _ rfl
    exact .none
  · exact (reading_parseParamsFrom c).mono fun _ => .some

theorem reading_closeEntry (c : Cursor) : Reading c (closeEntry c) fun ts =>
    ∃ right, ts = [right] ∧ right.kind = .mark .rightBrace := by
  unfold closeEntry
  split
  · rename_i hkind
    refine (Reading.advance hkind nofun nofun).mono ?_
    rintro _ ⟨right, rfl, hright, -⟩
    exact ⟨right, rfl, hright⟩
  · split
    · exact Reading.reported rfl ((reports_skipTo _ _).trans (reports_eat _ _))
    · exact Reading.missing ((reports_skipTo _ _).trans (reports_eat _ _))

/-- An entry that is read without a finding derives from the tokens that were passed. -/
theorem reading_parseEntry (c : Cursor) :
    Reading c (parseEntry c).rest (DerivesEntry · (parseEntry c).value) := by
  refine (((((((reading_expectIdent c).andThen (reading_expect _ .leftParen)).andThen
    (reading_parseParams _)).andThen (reading_expect _ .rightParen)).andThen
    (reading_expect _ .leftBrace)).andThen (reading_parseQuery _)).andThen
    (reading_closeEntry _)).mono ?_
  rintro _ ⟨_, _, rfl, ⟨_, us, rfl, ⟨_, _, rfl, ⟨_, _, rfl, ⟨_, ts, rfl, ⟨_, _, rfl,
    ⟨x, rfl, hx, hname⟩, leftParen, rfl, hleft, -⟩, hparams⟩, rightParen, rfl, hright, -⟩,
    leftBrace, rfl, hopen, -⟩, hquery⟩, rightBrace, rfl, hclose⟩
  have := DerivesEntry.mk hx hleft hparams hright hopen hquery hclose
  rw [← hname] at this
  simpa [parseEntry, parseEntryRest] using this

/-! ## Programs -/

/-- A program is read up to its end. -/
theorem ahead_parseDocument (c : Cursor) : (parseDocument c).rest.ahead = [] := by
  rw [parseDocument]
  dsimp only
  split
  · assumption
  · rename_i t rest heq
    have hlt := Cursor.length_past_lt heq
    split
    · have hle := (c.past t rest).expectIdent.noLonger
      have hle' := (c.past t rest).expectIdent.rest.length_expect (.mark .semicolon)
      exact ahead_parseDocument _
    · split
      · rename_i hkind
        have hlt' := length_parseEntry_lt ((kind_of_ahead heq).trans hkind)
        exact ahead_parseDocument _
      · have hlt' : (c.expected "`use` or an entry definition").advance.ahead.length <
            c.ahead.length := by
          simp [Cursor.advance, heq]
        exact ahead_parseDocument _
termination_by c.ahead.length
decreasing_by all_goals omega

/-- A document that is read without a finding derives from all tokens. -/
theorem reading_parseDocument (c : Cursor) :
    Reading c (parseDocument c).rest (DerivesDocument · (parseDocument c).value) := by
  rw [parseDocument]
  dsimp only
  split
  · refine (Reading.here c).mono ?_
    rintro _ rfl
    exact .nil
  · rename_i t rest heq
    have hlt := Cursor.length_past_lt heq
    split
    -- a library: its word, its name, a semicolon, and the declarations behind it
    · rename_i hword
      have hle := (c.past t rest).expectIdent.noLonger
      have hle' := (c.past t rest).expectIdent.rest.length_expect (.mark .semicolon)
      refine ((((Reading.past heq (by simp [hword])).andThen (reading_expectIdent _)).andThen
        (reading_expect _ .semicolon)).andThen (reading_parseDocument _)).mono ?_
      rintro _ ⟨_, us, rfl, ⟨_, _, rfl, ⟨_, _, rfl, rfl, x, rfl, hx, hname⟩, semicolon, rfl,
        hsemicolon, -⟩, hd⟩
      have := DerivesDocument.use hword hx hsemicolon hd
      rw [← hname] at this
      exact this
    · split
      · rename_i hkind
        have hlt' := length_parseEntry_lt ((kind_of_ahead heq).trans hkind)
        refine ((reading_parseEntry c).andThen (reading_parseDocument _)).mono ?_
        rintro _ ⟨_, us, rfl, hentry, hd⟩
        exact .entry hentry hd
      · have hlt' : (c.expected "`use` or an entry definition").advance.ahead.length <
            c.ahead.length := by
          simp [Cursor.advance, heq]
        exact Reading.missing ((reports_advance _).trans (reading_parseDocument _).reports)
termination_by c.ahead.length
decreasing_by all_goals omega

end LineQuery.Syntax
