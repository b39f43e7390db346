import LineQuery.Proofs.Grammar.DocumentReading
import LineQuery.Proofs.Grammar.Tiling
import LineQuery.Proofs.Grammar.TokenRuns

/-! # Reading by position comes to an end

Clauses, entries and documents are read by position as they are read by a cursor. It follows that
reading ends whatever the tokens are, that the position only goes on and stays in the row, and that
a document is read up to the end of its text.
-/

namespace LineQuery.Syntax

namespace Walk

variable {w : Walk} {r r' : TokenReader} {c : Cursor} {t : Token} {rest : List Token}

/-! ## Clauses -/

/-- The name behind `at` takes no turns. -/
theorem Stands.indexName (h : w.Stands r c) :
    w.Reads TokenRun.indexName r (parseIndexName c).out := by
  obtain ⟨r₁, hrun₁, hr₁⟩ := h.eat (.keyword .atWord)
  refine Reads.step hrun₁ ?_
  by_cases hk : c.kind = .keyword .atWord
  · rw [Cursor.eat, if_pos hk] at hr₁
    rw [parseIndexName, if_pos hk]
    simp only [hk, decide_true, if_true]
    exact Reads.bind hr₁.expectIdent fun name r₂ hr₂ hname =>
      Reads.pure hr₂ fun hexact => by
        rw [hname hexact]
        rfl
  · rw [Cursor.eat, if_neg hk] at hr₁
    rw [out_parseIndexName_of_ne hk]
    simp only [hk, decide_false]
    exact Reads.pure hr₁ fun _ => rfl

/-- A `from` clause, at its first word. -/
theorem Stands.fromClause (h : w.Stands r c) (hc : c.ahead = t :: rest)
    (hk : t.kind = .keyword .fromWord) (turns : Nat) (hturns : 5 * rest.length + 3 ≤ turns) :
    w.Reads (TokenRun.fromClause turns) r (parseFrom (c.past t rest)).out := by
  have hkind : c.kind = .keyword .fromWord := (Cursor.kind_of_ahead hc).trans hk
  obtain ⟨r₁, hrun₁, hr₁⟩ := h.expect (.keyword .fromWord)
  rw [Cursor.expect, if_pos hkind, Cursor.advance_of_ahead hc] at hr₁
  refine Reads.step hrun₁ (Reads.bind hr₁.expectIdent fun var r₂ hr₂ hvar => ?_)
  refine Reads.bind hr₂.indexName fun index r₃ hr₃ hindex => ?_
  obtain ⟨r₄, hrun₄, hr₄⟩ := hr₃.expect (.keyword .inWord)
  refine Reads.step hrun₄ ?_
  have := (c.past t rest).expectIdent.noLonger
  have := (parseIndexName (c.past t rest).expectIdent.rest).noLonger
  simp only [Cursor.ahead_past] at *
  unfold parseFrom
  dsimp only [Parsed.out] at *
  by_cases hin : (parseIndexName (c.past t rest).expectIdent.rest).rest.kind = .keyword .inWord
  · rw [Cursor.expect, if_pos hin] at hr₄
    rw [if_pos hin]
    have := (parseIndexName (c.past t rest).expectIdent.rest).rest.length_advance
    simp only [hin, decide_true, if_true]
    refine Reads.bind (reads_exprAbove turns 0 hr₄ (by omega)) fun source r₅ hr₅ hsource => ?_
    exact Reads.pure hr₅ fun hexact => by
      rw [hvar hexact, hindex hexact, hsource hexact]
      rfl
  · rw [Cursor.expect, if_neg hin] at hr₄
    rw [if_neg hin]
    simp only [hin, decide_false]
    obtain ⟨u, hu, -, huspan⟩ := hr₄.current
    obtain ⟨r₅, hrun₅, hr₅⟩ := hr₄.recoverToClause turns (by
      rw [Cursor.ahead_expected]
      omega)
    exact Reads.step hu (Reads.step hrun₅ (Reads.pure hr₅ fun hexact => by
      rw [hvar hexact, hindex hexact, huspan hexact]))

/-- Five turns for each token in front, and three more, are enough to read a `from`. -/
theorem Stands.rangeClause (h : w.Stands r c) (hc : c.ahead = t :: rest)
    (hk : t.kind = .keyword .fromWord) {turns : Nat} (hturns : 5 * rest.length + 3 ≤ turns) :
    w.Reads (TokenRun.rangeClause turns) r ((parseFrom (c.past t rest)).map .range).out :=
  Reads.bind (h.fromClause hc hk turns hturns) fun _ _ hr₁ hclause =>
    Reads.pure hr₁ fun hexact => congrArg Clause.range (hclause hexact)

/-- A clause of one expression is read in as many turns as the expression. -/
theorem Stands.exprClause (h : w.Stands r c) (hc : c.ahead = t :: rest) (make : Expr → Clause)
    {turns : Nat} (hturns : 5 * rest.length + 3 ≤ turns) :
    w.Reads (TokenRun.exprClause make turns) r ((parseExpr 0 (c.past t rest)).map make).out := by
  obtain ⟨r₁, hrun₁, hr₁⟩ := h.past hc
  refine Reads.step hrun₁ (Reads.bind (reads_exprAbove turns 0 hr₁ hturns) fun e r₂ hr₂ he => ?_)
  exact Reads.pure hr₂ fun hexact => congrArg make (he hexact)

theorem Stands.letClause (h : w.Stands r c) (hc : c.ahead = t :: rest) {turns : Nat}
    (hturns : 5 * rest.length + 3 ≤ turns) :
    w.Reads (TokenRun.letClause turns) r (parseLet (c.past t rest)).out := by
  obtain ⟨r₁, hrun₁, hr₁⟩ := h.past hc
  refine Reads.step hrun₁ (Reads.bind hr₁.expectIdent fun name r₂ hr₂ hname => ?_)
  obtain ⟨r₃, hrun₃, hr₃⟩ := hr₂.expect (.mark .assign)
  have := (c.past t rest).expectIdent.noLonger
  have := (c.past t rest).expectIdent.rest.length_expect (.mark .assign)
  dsimp only [Parsed.out, Cursor.ahead_past] at *
  refine Reads.step hrun₃
    (Reads.bind (reads_exprAbove turns 0 hr₃ (by omega)) fun value r₄ hr₄ hvalue => ?_)
  exact Reads.pure hr₄ fun hexact => by
    rw [hname hexact, hvalue hexact]
    rfl

theorem Stands.firstFrom (h : w.Stands r c) {turns : Nat}
    (hturns : 5 * c.ahead.length + 1 ≤ turns) :
    w.Reads (TokenRun.firstFrom turns) r (parseFirstFrom c).out := by
  obtain ⟨t, ht, hkind, hspan⟩ := h.current
  refine Reads.step ht ?_
  rw [parseFirstFrom, hkind]
  split
  · rename_i hk
    obtain ⟨u, rest, hc, hu⟩ := Cursor.ahead_of_kind hk (by decide)
    have hlen : c.ahead.length = rest.length + 1 := by rw [hc, List.length_cons]
    have hread := h.fromClause hc hu turns (by omega)
    rwa [← Cursor.advance_of_ahead hc] at hread
  · obtain ⟨r₁, hrun₁, hr₁⟩ := h.report .grammar
      ("a query must start with `from`, found " ++ c.kind.describe) hspan
    obtain ⟨r₂, hrun₂, hr₂⟩ := hr₁.recoverToClause turns (by
      rw [Cursor.ahead_report]
      omega)
    exact Reads.step hrun₁ (Reads.step hrun₂ (Reads.pure hr₂ fun hexact => by
      rw [hspan hexact]))

/-- A query that ends without `select` leaves a hole. -/
theorem Stands.noSelect (h : w.Stands r c) {span : Span} (hspan : w.Exact → span = c.span) :
    w.Reads
      (do
        TokenRun.report .grammar "a query must end with a `select` clause" span
        pure ([], Expr.hole span)) r
      (noSelect c).out := by
  obtain ⟨r₁, hrun₁, hr₁⟩ := h.report .grammar "a query must end with a `select` clause" hspan
  exact Reads.step hrun₁ (Reads.pure hr₁ fun hexact => by
    rw [hspan hexact]
    rfl)

/-- A clause and then the clauses behind it are read one after the other. -/
theorem Reads.withMore {m : TokenRun Clause} {more : TokenRun (List Clause × Expr)}
    {part : Clause × Cursor} (hm : w.Reads m r part)
    (hmore : ∀ r', w.Stands r' part.2 → w.Reads more r' (parseClauses part.2).out) :
    w.Reads (TokenRun.withMore m more) r (clauseThen part.1 part.2) :=
  Reads.bind hm fun first r₁ hr₁ hfirst =>
    Reads.bind (hmore r₁ hr₁) fun rest r₂ hr₂ hrest =>
      Reads.pure hr₂ fun hexact => by rw [hfirst hexact, hrest hexact]

/-- The loop over clauses moves forward in each round, so it ends. -/
theorem reads_clauses (turns : Nat) (h : w.Stands r c) (hturns : 5 * c.ahead.length + 1 ≤ turns) :
    w.Reads (TokenRun.clauses turns) r (parseClauses c).out := by
  induction turns generalizing r c with
  | zero => exact absurd hturns (by omega)
  | succ turns ih =>
    rw [TokenRun.clauses]
    cases hc : c.ahead with
    | nil =>
      rw [out_parseClauses_of_nil hc]
      refine Reads.step (h.current_of_nil hc) ?_
      simp only [w.text.ends]
      refine h.noSelect fun hexact => ?_
      rw [hexact, Cursor.span, hc, h.stop]
    | cons t rest =>
      have hlen : c.ahead.length = rest.length + 1 := by rw [hc, List.length_cons]
      have hshort : 5 * rest.length + 3 ≤ turns := by omega
      -- Behind a clause fewer tokens are ahead, and turns enough for them are left.
      have hmore {α : Type} (p : Parsed α (c.past t rest)) (r') (hr' : w.Stands r' p.rest) :
          w.Reads (TokenRun.clauses turns) r' (parseClauses p.rest).out :=
        ih hr' (by
          have := p.noLonger
          rw [Cursor.ahead_past] at this
          omega)
      have hother (hread : clauseReader? t.kind = none) (hselect : t.kind ≠ .keyword .selectWord)
          (hbrace : t.kind ≠ .mark .rightBrace) : w.Reads
            (do
              TokenRun.expected "a query clause"
              TokenRun.advance
              TokenRun.recoverToClause turns
              TokenRun.clauses turns) r (parseClauses c).out := by
        rw [out_parseClauses_of_other hc hread hselect hbrace]
        obtain ⟨r₁, hrun₁, hr₁⟩ := h.expected "a query clause"
        obtain ⟨r₂, hrun₂, hr₂⟩ := hr₁.advance
        obtain ⟨r₃, hrun₃, hr₃⟩ := hr₂.recoverToClause turns (by
          have := (c.expected "a query clause").length_advance
          rw [Cursor.ahead_expected] at this
          omega)
        refine Reads.step hrun₁ (Reads.step hrun₂ (Reads.step hrun₃ ?_))
        exact ih hr₃ (by
          have := length_pastClause_lt hc
          omega)
      refine Reads.step (h.current_of_ahead hc) ?_
      cases hk : t.kind with
      | keyword k =>
        cases k with
        | fromWord =>
          rw [out_parseClauses hc (by rw [hk]; rfl)]
          exact Reads.withMore (h.rangeClause hc hk hshort) (hmore _)
        | whereWord | skipWord | takeWord =>
          rw [out_parseClauses hc (by rw [hk]; rfl)]
          exact Reads.withMore (h.exprClause hc _ hshort) (hmore _)
        | letWord =>
          rw [out_parseClauses hc (by rw [hk]; rfl)]
          exact Reads.withMore (h.letClause hc hshort) (hmore _)
        | selectWord =>
          rw [out_parseClauses_select hc hk]
          obtain ⟨r₁, hrun₁, hr₁⟩ := h.past hc
          refine Reads.step hrun₁
            (Reads.bind (reads_exprAbove turns 0 hr₁ hshort) fun e r₂ hr₂ he => ?_)
          exact Reads.pure hr₂ fun hexact => by
            rw [he hexact]
            rfl
        | _ => exact hother (by rw [hk]; rfl) (by simp [hk]) (by simp [hk])
      | mark m =>
        cases m with
        | rightBrace =>
          rw [out_parseClauses_of_brace hc hk]
          exact h.noSelect fun _ => by rw [Cursor.span, hc]
        | _ => exact hother (by rw [hk]; rfl) (by simp [hk]) (by simp [hk])
      | eof => exact absurd hk (h.kind_ne_eof hc)
      | _ => exact hother (by rw [hk]; rfl) (by simp [hk]) (by simp [hk])

/-- A query is read in turns that grow with the number of tokens. -/
theorem Stands.query (h : w.Stands r c) {turns : Nat} (hturns : 5 * c.ahead.length + 1 ≤ turns) :
    w.Reads (TokenRun.query turns) r (parseQuery c).out := by
  have := (parseFirstFrom c).noLonger
  refine Reads.bind (h.firstFrom hturns) fun source r₁ hr₁ hsource => ?_
  refine Reads.bind (reads_clauses turns hr₁ (by dsimp only [Parsed.out]; omega))
    fun more r₂ hr₂ hmore => ?_
  exact Reads.pure hr₂ fun hexact => by
    rw [hsource hexact, hmore hexact]
    rfl

/-! ## Declarations -/

/-- Each parameter takes one turn. -/
theorem reads_paramsFrom (turns : Nat) (h : w.Stands r c) (hturns : c.ahead.length < turns) :
    w.Reads (TokenRun.paramsFrom turns) r (parseParamsFrom c).out := by
  induction turns generalizing r c with
  | zero => exact absurd hturns (Nat.not_lt_zero _)
  | succ turns ih =>
    rw [TokenRun.paramsFrom]
    refine Reads.bind h.expectIdent fun param r₁ hr₁ hparam => ?_
    obtain ⟨r₂, hrun₂, hr₂⟩ := hr₁.eat (.mark .comma)
    refine Reads.step hrun₂ ?_
    by_cases hk : c.expectIdent.out.2.kind = .mark .comma
    · obtain ⟨t, rest, hd, ht⟩ := Cursor.ahead_of_kind hk (by decide)
      rw [Cursor.eat, if_pos hk, Cursor.advance_of_ahead hd, Cursor.past_eq_passed] at hr₂
      rw [out_parseParamsFrom_comma rfl hd ht]
      simp only [hk, decide_true, if_true]
      have := c.expectIdent.noLonger
      have := congrArg List.length hd
      dsimp only [Parsed.out, List.length_cons] at this
      refine Reads.bind (ih hr₂ (by
        dsimp only [Cursor.passed]
        omega)) fun params r₃ hr₃ hparams => ?_
      exact Reads.pure hr₃ fun hexact => by
        rw [hparam hexact, hparams hexact]
        rfl
    · rw [Cursor.eat, if_neg hk] at hr₂
      rw [out_parseParamsFrom_last rfl hk]
      simp only [hk, decide_false]
      exact Reads.pure hr₂ fun hexact => by
        rw [hparam hexact]
        rfl

theorem Stands.params (h : w.Stands r c) {turns : Nat} (hturns : c.ahead.length < turns) :
    w.Reads (TokenRun.params turns) r (parseParams c).out := by
  obtain ⟨t, ht, hkind, -⟩ := h.current
  refine Reads.step ht ?_
  rw [parseParams, hkind]
  split
  · exact Reads.pure h fun _ => rfl
  · exact reads_paramsFrom turns h hturns

/-- What stands before the closing brace of an entry is reported. -/
theorem Stands.notClosed (h : w.Stands r c) (hkind : t.kind = c.kind)
    (hspan : w.Exact → t.span = c.span) :
    ∃ r', (TokenRun.notClosed t).run r = some ((), r') ∧ w.Stands r'
      (if c.kind.startsClause then
        c.report .grammar "`select` must be the last clause of a query" c.span
      else c.expected (TokenKind.describe (.mark .rightBrace))) := by
  rw [TokenRun.notClosed, hkind]
  split
  · exact h.report _ _ hspan
  · exact h.expected _

/-- Looking for the end of an entry passes each token once at most. -/
theorem Stands.closeEntry (h : w.Stands r c) (turns : Nat) (hturns : c.ahead.length < turns) :
    ∃ r', (TokenRun.closeEntry turns).run r = some ((), r') ∧ w.Stands r' (closeEntry c) := by
  obtain ⟨r₁, hrun₁, hr₁⟩ := h.eat (.mark .rightBrace)
  rw [TokenRun.closeEntry, Syntax.closeEntry, StateT.run_bind, hrun₁]
  by_cases hk : c.kind = .mark .rightBrace
  · rw [Cursor.eat, if_pos hk] at hr₁
    exact ⟨r₁, by simp [hk], by rwa [if_pos hk]⟩
  · rw [Cursor.eat, if_neg hk] at hr₁
    obtain ⟨t, ht, hkind, hspan⟩ := hr₁.current
    obtain ⟨r₂, hrun₂, hr₂⟩ := hr₁.notClosed hkind hspan
    obtain ⟨r₃, hrun₃, hr₃⟩ := hr₂.skipTo (· == .mark .rightBrace) turns (by
      split <;> simpa using hturns)
    obtain ⟨r₄, hrun₄, hr₄⟩ := hr₃.eat (.mark .rightBrace)
    refine ⟨r₄, ?_, by rwa [if_neg hk]⟩
    simp [hk, ht, hrun₂, hrun₃, hrun₄]

/-- An entry is read in turns that grow with the number of tokens. -/
theorem Stands.entry (h : w.Stands r c) (turns : Nat) (hturns : 5 * c.ahead.length + 1 ≤ turns) :
    w.Reads (TokenRun.entry turns) r (parseEntry c).out := by
  refine Reads.bind h.expectIdent fun name r₁ hr₁ hname => ?_
  dsimp only [Parsed.out] at hr₁ hname
  have h₁ := c.expectIdent.noLonger
  obtain ⟨r₂, hrun₂, hr₂⟩ := hr₁.expect (.mark .leftParen)
  have h₂ := c.expectIdent.rest.length_expect (.mark .leftParen)
  refine Reads.step hrun₂ (Reads.bind (hr₂.params (by omega)) fun params r₃ hr₃ hparams => ?_)
  dsimp only [Parsed.out] at hr₃ hparams
  generalize hp : parseParams (c.expectIdent.rest.expect (.mark .leftParen)) = p at *
  have h₃ := p.noLonger
  obtain ⟨r₄, hrun₄, hr₄⟩ := hr₃.expect (.mark .rightParen)
  have h₄ := p.rest.length_expect (.mark .rightParen)
  obtain ⟨r₅, hrun₅, hr₅⟩ := hr₄.expect (.mark .leftBrace)
  have h₅ := (p.rest.expect (.mark .rightParen)).length_expect (.mark .leftBrace)
  refine Reads.step hrun₄ (Reads.step hrun₅
    (Reads.bind (hr₅.query (by omega)) fun query r₆ hr₆ hquery => ?_))
  dsimp only [Parsed.out] at hr₆ hquery
  have h₆ := (parseQuery ((p.rest.expect (.mark .rightParen)).expect (.mark .leftBrace))).noLonger
  obtain ⟨r₇, hrun₇, hr₇⟩ := hr₆.closeEntry turns (by omega)
  subst hp
  exact Reads.step hrun₇ (Reads.pure hr₇ fun hexact => by
    rw [hname hexact, hparams hexact, hquery hexact]
    rfl)

/-- The loop over entries moves forward in each round, so it ends. -/
theorem reads_program (turns : Nat) (h : w.Stands r c) (hturns : 5 * c.ahead.length + 2 ≤ turns) :
    w.Reads (TokenRun.program turns) r (parseDocument c).out := by
  induction turns generalizing r c with
  | zero => exact absurd hturns (by omega)
  | succ turns ih =>
    rw [TokenRun.program]
    cases hc : c.ahead with
    | nil =>
      rw [out_parseDocument_of_nil hc]
      refine Reads.step (h.current_of_nil hc) ?_
      simp only [w.text.ends]
      exact Reads.pure h fun _ => rfl
    | cons t rest =>
      have hlen : c.ahead.length = rest.length + 1 := by rw [hc, List.length_cons]
      -- whatever starts no declaration is reported and passed over
      have hother (huse : t.kind ≠ .keyword .useWord) (hident : t.kind ≠ .ident) : w.Reads
          (do
            TokenRun.expected "`use` or an entry definition"
            TokenRun.advance
            TokenRun.program turns) r (parseDocument c).out := by
        rw [out_parseDocument_of_other hc huse hident]
        obtain ⟨r₁, hrun₁, hr₁⟩ := h.expected "`use` or an entry definition"
        obtain ⟨r₂, hrun₂, hr₂⟩ := hr₁.advance
        refine Reads.step hrun₁ (Reads.step hrun₂ (ih hr₂ ?_))
        simp only [Cursor.advance, Cursor.ahead_expected, hc, Cursor.ahead_past]
        omega
      have hentry := h.entry turns (by omega)
      refine Reads.step (h.current_of_ahead hc) ?_
      cases hk : t.kind with
      | eof => exact absurd hk (h.kind_ne_eof hc)
      | ident =>
        rw [out_parseDocument_entry hc hk]
        -- an entry takes its name at least, so fewer tokens are left for the rest
        have hshort := length_parseEntry_lt ((Cursor.kind_of_ahead hc).trans hk)
        refine Reads.bind hentry fun e r₁ hr₁ he => ?_
        refine Reads.bind (ih hr₁ (by dsimp only [Parsed.out]; omega))
          fun more r₂ hr₂ hmore => ?_
        exact Reads.pure hr₂ fun hexact => by rw [he hexact, hmore hexact]
      | keyword k =>
        cases k with
        | useWord =>
          rw [out_parseDocument_use hc hk]
          obtain ⟨r₁, hrun₁, hr₁⟩ := h.past hc
          refine Reads.step hrun₁ (Reads.bind hr₁.expectIdent fun name r₂ hr₂ hname => ?_)
          obtain ⟨r₃, hrun₃, hr₃⟩ := hr₂.expect (.mark .semicolon)
          have := (c.past t rest).expectIdent.noLonger
          have := (c.past t rest).expectIdent.rest.length_expect (.mark .semicolon)
          refine Reads.step hrun₃ (Reads.bind (ih hr₃ (by
            dsimp only [Parsed.out, Cursor.ahead_past] at *
            omega)) fun more r₄ hr₄ hmore => ?_)
          exact Reads.pure hr₄ fun hexact => by rw [hname hexact, hmore hexact]
        | _ => exact hother (by simp [hk]) (by simp [hk])
      | _ => exact hother (by simp [hk]) (by simp [hk])

end Walk

/-! ## The end of a reading -/

namespace TokenText

variable {x : TokenText} {r : TokenReader}

/-- The cursor at the place of a reader in the row, for a text that ends at `stop`. -/
def cursor (x : TokenText) (r : TokenReader) (stop : Nat) : Cursor where
  ahead := x.tokens.drop r.position
  behind := (x.tokens[r.position - 1]?.map Token.span).getD ⟨0, 0⟩
  stop := stop
  findings := r.findings

theorem Holds.stands (h : x.Holds r) (stop : Nat) :
    Walk.Stands ⟨x, r, stop⟩ r (x.cursor r stop) where
  holds := h
  onward := .refl r
  ahead := rfl
  behind t _ ht := by simp [cursor, ht]
  stop := rfl
  findings _ := rfl

/-- At the first position nothing is behind the reader. -/
theorem stands_start (x : TokenText) (stop : Nat) :
    Walk.Stands ⟨x, .start x.row, stop⟩ (.start x.row) (.start x.tokens stop) where
  holds := ⟨rfl, Nat.zero_le _⟩
  onward := .refl _
  ahead := rfl
  behind _ hpos _ := absurd hpos (Nat.lt_irrefl 0)
  stop := rfl
  findings _ := rfl

/-- At the start all tokens stand in front. -/
theorem turns_start (x : TokenText) : x.turns (.start x.row) = 5 * x.tokens.length + 5 := rfl

/-- What is read beside a cursor from every place comes to an end. -/
theorem ends_of_reads {α : Type} {run : Nat → TokenRun α}
    (h : ∀ {w : Walk} {r : TokenReader} {c : Cursor} (turns : Nat), w.Stands r c →
      5 * c.ahead.length + 5 ≤ turns → ∃ out, w.Reads (run turns) r out) : x.Ends run := by
  intro r hr turns hturns
  have hstands := hr.stands 0
  rw [TokenText.turns, ← hstands.length_ahead] at hturns
  obtain ⟨out, a, r', hrun, hr', -⟩ := h turns hstands hturns
  exact ⟨a, r', hrun, hr'.holds, hr'.onward⟩

/-- A document is read up to the end of its text. -/
theorem position_of_program (h : x.Holds r) {turns : Nat} (hturns : x.turns r ≤ turns)
    {d : Document} {r' : TokenReader} (hrun : (TokenRun.program turns).run r = some (d, r')) :
    r'.position = x.tokens.length := by
  have hstands := h.stands 0
  rw [TokenText.turns, ← hstands.length_ahead] at hturns
  obtain ⟨d', r'', hrun', hr', -⟩ := Walk.reads_program turns hstands (by omega)
  obtain ⟨rfl, rfl⟩ := Prod.mk.inj (Option.some.inj (hrun.symm.trans hrun'))
  have hlen := hr'.length_ahead
  have hle := hr'.holds.2
  rw [Parsed.out, ahead_parseDocument, List.length_nil] at hlen
  dsimp only at hlen hle
  omega

/-- Read by position, the tokens give what a cursor reads. -/
theorem program_start (x : TokenText) {stop turns : Nat} (hstop : x.last.span = ⟨stop, stop⟩)
    (hturns : 5 * x.tokens.length + 2 ≤ turns) :
    ∃ r, (TokenRun.program turns).run (.start x.row) =
        some ((parseDocument (.start x.tokens stop)).value, r) ∧
      r.findings = (parseDocument (.start x.tokens stop)).rest.findings := by
  obtain ⟨d, r, hrun, hr, hd⟩ := Walk.reads_program turns (x.stands_start stop) hturns
  exact ⟨r, by rw [hrun, hd hstop]; rfl, hr.findings hstop⟩

def ofText (text : String) : TokenText where
  tokens := Syntax.tokens text
  last := ⟨.eof, "", ⟨text.utf8ByteSize, text.utf8ByteSize⟩⟩
  plain _ h := kind_ne_eof_of_mem h
  ends := rfl

/-- A text is parsed as its tokens are read by position. -/
theorem program_ofText (text : String) {turns : Nat}
    (hturns : 5 * (Syntax.tokens text).length + 2 ≤ turns) :
    ∃ r, (TokenRun.program turns).run (.start (ofText text).row) = some ((parse text).1, r) ∧
      (parse text).2 = (Syntax.tokens text).filterMap Token.finding? ++ r.findings.reverse := by
  obtain ⟨r, hrun, hfindings⟩ := (ofText text).program_start rfl hturns
  refine ⟨r, hrun, ?_⟩
  rw [hfindings]
  rfl

end TokenText

/-- Reading by position always comes to an end. For every row of tokens that ends with the only
token for the end of a text, and from every place in it, each part of a document is read with
a number of turns that is linear in the number of tokens ahead: no position is left but for the
next one, and none behind the row is reached. A document is read up to the end of the text, and it
is the one that is parsed. -/
theorem reading_by_position_ends (x : TokenText) :
    x.Ends TokenRun.recoverToClause ∧
    (∀ above, x.Ends fun turns => TokenRun.exprAbove turns above) ∧
    (∀ close, x.Ends fun turns => TokenRun.commaList turns close) ∧
    x.Ends TokenRun.query ∧
    x.Ends TokenRun.entry ∧
    x.Ends TokenRun.program ∧
    (∀ r, x.Holds r → ∀ turns, x.turns r ≤ turns → ∀ d r',
      (TokenRun.program turns).run r = some (d, r') → r'.position = x.tokens.length) ∧
    ∀ stop, x.last.span = ⟨stop, stop⟩ → ∀ turns, x.turns (.start x.row) ≤ turns →
      ∃ r, (TokenRun.program turns).run (.start x.row) =
          some ((parseDocument (.start x.tokens stop)).value, r) ∧
        r.findings = (parseDocument (.start x.tokens stop)).rest.findings := by
  refine ⟨TokenText.ends_of_reads fun turns h hturns => ?_,
    fun above => TokenText.ends_of_reads fun turns h hturns =>
      ⟨_, Walk.reads_exprAbove turns above h (by omega)⟩,
    fun close => TokenText.ends_of_reads fun turns h hturns =>
      ⟨_, Walk.reads_commaList turns close h hturns⟩,
    TokenText.ends_of_reads fun turns h hturns => ⟨_, h.query (by omega)⟩,
    TokenText.ends_of_reads fun turns h hturns => ⟨_, h.entry turns (by omega)⟩,
    TokenText.ends_of_reads fun turns h hturns => ⟨_, Walk.reads_program turns h (by omega)⟩,
    fun r hr turns hturns d r' hrun => TokenText.position_of_program hr hturns hrun,
    fun stop hstop turns hturns => x.program_start hstop ?_⟩
  · obtain ⟨r', hrun, hr'⟩ := h.recoverToClause turns (by omega)
    exact ⟨((), _), (), r', hrun, hr', fun _ => rfl⟩
  · rw [x.turns_start] at hturns
    omega

/-- A row that no rule fits is left position by position. -/
example : ((TokenRun.program 25).run (.start (TokenText.ofText "q(let let ]").row)).map
    (fun out => (out.2.position, out.2.trail)) = some (5, [4, 3, 2, 1, 0]) := by
  decide +kernel

end LineQuery.Syntax
