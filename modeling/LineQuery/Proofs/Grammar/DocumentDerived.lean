import LineQuery.Proofs.Grammar.ExprDerived

/-! # Derived programs are read

Tokens that derive a program are read as that program and without a finding. With the reading
of expressions this is the converse of what is read being derived.
-/

namespace LineQuery.Syntax

open Cursor

/-! ## Clauses -/

/-- An expression is read whole if what stands behind it cannot belong to it. -/
theorem DerivesExpr.read {ts more : List Token} {e : Expr} {c : Cursor} (h : DerivesExpr 0 ts e)
    (hfits : ∀ t ∈ ts, t.Fits) (heq : c.ahead = ts ++ more) (hf : Follows 0 (c.passed ts more)) :
    (parseExpr 0 c).out = (e, c.passed ts more) :=
  hf.whole (h.out (Nat.le_refl 0) hfits heq)

/-- The word of a clause ends the expression in front of it. -/
theorem follows_of_startsClause {c : Cursor} (h : c.kind.startsClause = true) : Follows 0 c := by
  cases hk : c.kind with
  | keyword k => exact Follows.of_kind hk ⟨nofun, nofun, rfl⟩
  | _ => simp [hk, TokenKind.startsClause] at h

theorem out_expectIdent {c : Cursor} {t : Token} (rest : List Token) (h : c.ahead = t :: rest)
    (hkind : t.kind = .ident) : c.expectIdent.out = (t.ident, c.passed [t] rest) := by
  obtain ⟨_, _, _, _⟩ := c
  cases h
  rw [expectIdent]
  simp only [hkind]
  rfl

/-- Where no name stands the parser puts the placeholder and goes nowhere. -/
theorem out_expectIdent_of_ne {c : Cursor} (h : c.kind ≠ .ident) :
    c.expectIdent.out = (.missing c.span, c.expected "identifier") := by
  unfold Cursor.expectIdent
  split
  · rename_i t rest hc
    rw [Cursor.kind_of_ahead hc] at h
    rw [if_neg h]
    rfl
  · rfl

theorem out_parseIndexName_of_ne {c : Cursor} (h : c.kind ≠ .keyword .atWord) :
    (parseIndexName c).out = (none, c) := by
  rw [parseIndexName, if_neg h]
  rfl

theorem out_parseIndexName {c : Cursor} {atWord i : Token} {rest : List Token}
    (h : c.ahead = atWord :: i :: rest) (hat : atWord.kind = .keyword .atWord)
    (hi : i.kind = .ident) :
    (parseIndexName c).out = (some i.ident, c.passed [atWord, i] rest) := by
  have hindex := out_expectIdent (c := c.advance) rest (by rw [advance_of_ahead h]; rfl) hi
  rw [parseIndexName, if_pos ((kind_of_ahead h).trans hat), Parsed.out_since, Parsed.out_map,
    hindex, advance_of_ahead h, past_eq_passed, passed_passed]
  rfl

theorem out_parseFrom {c d e : Cursor} {var : Ident} {index : Option Ident} {word : Token}
    {rest : List Token} (hvar : c.expectIdent.out = (var, d))
    (hindex : (parseIndexName d).out = (index, e)) (he : e.ahead = word :: rest)
    (hword : word.kind = .keyword .inWord) : (parseFrom c).out =
      (⟨var, index, (parseExpr 0 (e.passed [word] rest)).out.1⟩,
      (parseExpr 0 (e.passed [word] rest)).out.2) := by
  obtain ⟨rfl, rfl⟩ := Prod.mk.inj hvar
  obtain ⟨rfl, rfl⟩ := Prod.mk.inj hindex
  rw [parseFrom]
  dsimp only
  rw [if_pos ((kind_of_ahead he).trans hword), Parsed.out_since, Parsed.out_map,
    advance_of_ahead he]
  rfl

/-- What derives from a `from` without its word is read as it. -/
theorem DerivesRange.read {ts more : List Token} {clause : FromClause} {c : Cursor}
    (h : DerivesRange ts clause) (hfits : ∀ t ∈ ts, t.Fits) (heq : c.ahead = ts ++ more)
    (hf : Follows 0 (c.passed ts more)) : (parseFrom c).out = (clause, c.passed ts more) := by
  cases h with
  | @plain x word ts e hx hword he =>
    simp only [List.forall_mem_cons] at hfits
    have hvar := out_expectIdent (word :: (ts ++ more)) heq hx
    have hindex := out_parseIndexName_of_ne (c := c.passed [x] (word :: (ts ++ more)))
      (by rw [kind_passed, hword]; decide)
    have hsource := he.read (c := c.passed [x, word] (ts ++ more)) hfits.2.2 rfl
      (hf.of_ahead rfl)
    rw [out_parseFrom hvar hindex rfl hword, passed_passed, List.singleton_append, hsource,
      passed_passed]
    rfl
  | @indexed x atWord i word ts e hx hat hi hword he =>
    simp only [List.forall_mem_cons] at hfits
    have hvar := out_expectIdent (atWord :: i :: word :: (ts ++ more)) heq hx
    have hindex := out_parseIndexName (c := c.passed [x] (atWord :: i :: word :: (ts ++ more)))
      rfl hat hi
    have hsource := he.read (c := c.passed [x, atWord, i, word] (ts ++ more)) hfits.2.2.2.2 rfl
      (hf.of_ahead rfl)
    rw [passed_passed] at hindex
    rw [out_parseFrom hvar hindex rfl hword, passed_passed]
    simp only [List.cons_append, List.nil_append]
    rw [hsource, passed_passed]
    rfl

theorem out_parseLet {c : Cursor} {x assign : Token} {rest : List Token}
    (h : c.ahead = x :: assign :: rest) (hx : x.kind = .ident)
    (hassign : assign.kind = .mark .assign) : (parseLet c).out =
      (.bind x.ident (parseExpr 0 (c.passed [x, assign] rest)).out.1,
      (parseExpr 0 (c.passed [x, assign] rest)).out.2) := by
  have hname := out_expectIdent (assign :: rest) h hx
  obtain ⟨hvalue, hrest⟩ := Prod.mk.inj hname
  have hexpect : c.expectIdent.rest.expect (.mark .assign) = c.passed [x, assign] rest := by
    rw [hrest, expect_of_ahead rfl hassign, past_passed]
    rfl
  rw [← hexpect, ← hvalue]
  rfl

/-- What reads a clause behind a token, if one starts with it. -/
def clauseReader? : TokenKind → Option ((c : Cursor) → Parsed Clause c)
  | .keyword .fromWord => some fun c => (parseFrom c).map .range
  | .keyword .whereWord => some fun c => (parseExpr 0 c).map .filter
  | .keyword .letWord => some parseLet
  | .keyword .skipWord => some fun c => (parseExpr 0 c).map .skip
  | .keyword .takeWord => some fun c => (parseExpr 0 c).map .take
  | _ => none

/-- A clause in front of the clauses that are read from `d`. -/
def clauseThen (clause : Clause) (d : Cursor) : (List Clause × Expr) × Cursor :=
  ((clause :: (parseClauses d).out.1.1, (parseClauses d).out.1.2), (parseClauses d).out.2)

/-- The word of a clause decides how it is read. -/
theorem out_parseClauses {c : Cursor} {t : Token} {rest : List Token}
    {read : (c : Cursor) → Parsed Clause c} (h : c.ahead = t :: rest)
    (hread : clauseReader? t.kind = some read) : (parseClauses c).out =
      clauseThen (read (c.passed [t] rest)).out.1 (read (c.passed [t] rest)).out.2 := by
  obtain ⟨_, _, _, _⟩ := c
  cases h
  rw [parseClauses]
  cases hk : t.kind with
  | keyword k =>
    cases k <;> simp only [hk, clauseReader?, Option.some.injEq, reduceCtorEq] at hread ⊢ <;>
      subst hread <;> rfl
  | _ => simp [hk, clauseReader?] at hread

theorem out_parseClauses_of_nil {c : Cursor} (h : c.ahead = []) :
    (parseClauses c).out = (noSelect c).out := by
  obtain ⟨_, _, _, _⟩ := c
  cases h
  rw [parseClauses]

theorem out_parseClauses_of_brace {c : Cursor} {t : Token} {rest : List Token}
    (h : c.ahead = t :: rest) (hk : t.kind = .mark .rightBrace) :
    (parseClauses c).out = (noSelect c).out := by
  obtain ⟨_, _, _, _⟩ := c
  cases h
  rw [parseClauses]
  simp only [hk]

/-- A token that starts no clause is passed over. -/
theorem out_parseClauses_of_other {c : Cursor} {t : Token} {rest : List Token}
    (h : c.ahead = t :: rest) (hread : clauseReader? t.kind = none)
    (hselect : t.kind ≠ .keyword .selectWord) (hbrace : t.kind ≠ .mark .rightBrace) :
    (parseClauses c).out =
      (parseClauses (c.expected "a query clause").advance.toClause).out := by
  obtain ⟨_, _, _, _⟩ := c
  cases h
  rw [parseClauses]
  dsimp only
  split <;> simp_all [clauseReader?]

/-- A clause of one expression is read, and then the clauses behind it. -/
theorem DerivesExpr.readClause {word : Token} {ts more : List Token} {e : Expr} {c : Cursor}
    {make : Expr → Clause} (h : DerivesExpr 0 ts e)
    (hword : clauseReader? word.kind = some fun c => (parseExpr 0 c).map make)
    (hfits : ∀ t ∈ word :: ts, t.Fits) (heq : c.ahead = word :: ts ++ more)
    (hf : Follows 0 (c.passed (word :: ts) more)) :
    (parseClauses c).out = clauseThen (make e) (c.passed (word :: ts) more) := by
  have hexpr := h.read (c := c.passed [word] (ts ++ more)) (List.forall_mem_cons.mp hfits).2 rfl
    (hf.of_ahead rfl)
  rw [out_parseClauses heq hword, Parsed.out_map, List.append_eq, hexpr, passed_passed]
  rfl

/-- A clause is read, and then the clauses behind it. -/
theorem DerivesClause.read {ts more : List Token} {clause : Clause} {c : Cursor}
    (h : DerivesClause ts clause) (hfits : ∀ t ∈ ts, t.Fits) (heq : c.ahead = ts ++ more)
    (hf : Follows 0 (c.passed ts more)) :
    (parseClauses c).out = clauseThen clause (c.passed ts more) := by
  cases h with
  | @range word ts clause hword h =>
    simp only [List.forall_mem_cons] at hfits
    have hclause := h.read (c := c.passed [word] (ts ++ more)) hfits.2 rfl (hf.of_ahead rfl)
    rw [out_parseClauses heq (by rw [hword]; rfl), Parsed.out_map, List.append_eq, hclause,
      passed_passed]
    rfl
  | filter hword h => exact h.readClause (by rw [hword]; rfl) hfits heq hf
  | @bind word x assign ts e hword hx hassign h =>
    simp only [List.forall_mem_cons] at hfits
    have hvalue := h.read (c := c.passed [word, x, assign] (ts ++ more)) hfits.2.2.2 rfl
      (hf.of_ahead rfl)
    have hbind : (parseLet (c.passed [word] (x :: assign :: ts ++ more))).out =
        (.bind x.ident e, c.passed (word :: x :: assign :: ts) more) := by
      rw [out_parseLet rfl hx hassign, passed_passed, List.singleton_append, List.append_eq, hvalue,
        passed_passed]
      rfl
    rw [out_parseClauses heq (by rw [hword]; rfl), List.append_eq, hbind]
  | skip hword h => exact h.readClause (by rw [hword]; rfl) hfits heq hf
  | take hword h => exact h.readClause (by rw [hword]; rfl) hfits heq hf

/-- A clause starts with a word of its own. -/
theorem DerivesClause.starts {ts : List Token} {clause : Clause} (h : DerivesClause ts clause) :
    ∃ t rest, ts = t :: rest ∧ t.kind.startsClause = true := by
  cases h with
  | range hword _ | filter hword _ | bind hword _ _ _ | skip hword _ | take hword _ =>
    exact ⟨_, _, rfl, by rw [hword]; rfl⟩

theorem DerivesBody.starts {ts : List Token} {clauses : List Clause} {e : Expr}
    (h : DerivesBody ts clauses e) : ∃ t rest, ts = t :: rest ∧ t.kind.startsClause = true := by
  cases h with
  | select hword _ => exact ⟨_, _, rfl, by rw [hword]; rfl⟩
  | clause h _ =>
    obtain ⟨t, rest, rfl, ht⟩ := h.starts
    exact ⟨t, _, rfl, ht⟩

theorem out_parseClauses_select {c : Cursor} {t : Token} {rest : List Token}
    (h : c.ahead = t :: rest) (hword : t.kind = .keyword .selectWord) : (parseClauses c).out =
      (([], (parseExpr 0 (c.passed [t] rest)).out.1), (parseExpr 0 (c.passed [t] rest)).out.2) := by
  obtain ⟨_, _, _, _⟩ := c
  cases h
  rw [parseClauses]
  simp only [hword]
  rfl

/-- What derives from clauses and a `select` is read as them. -/
theorem DerivesBody.read {ts : List Token} {clauses : List Clause} {e : Expr}
    (h : DerivesBody ts clauses e) : ∀ {c : Cursor} {more : List Token}, (∀ t ∈ ts, t.Fits) →
      c.ahead = ts ++ more → Follows 0 (c.passed ts more) →
      (parseClauses c).out = ((clauses, e), c.passed ts more) := by
  induction h with
  | @select word ts e hword h =>
    intro c more hfits heq hf
    simp only [List.forall_mem_cons] at hfits
    have hselect := h.read (c := c.passed [word] (ts ++ more)) hfits.2 rfl (hf.of_ahead rfl)
    rw [out_parseClauses_select heq hword, List.append_eq, hselect, passed_passed]
    rfl
  | @clause ts us clause clauses e hclause hbody ih =>
    intro c more hfits heq hf
    simp only [List.forall_mem_append] at hfits
    rw [List.append_assoc] at heq
    -- The next clause starts with a word that no expression goes on with.
    have hnext : Follows 0 (c.passed ts (us ++ more)) := by
      obtain ⟨t, rest, rfl, ht⟩ := hbody.starts
      exact follows_of_startsClause ht
    have hrest := ih (c := c.passed ts (us ++ more)) hfits.2 rfl (hf.of_ahead rfl)
    rw [hclause.read hfits.1 heq hnext, clauseThen, hrest, passed_passed]

theorem DerivesQuery.read {ts more : List Token} {q : Query} {c : Cursor}
    (h : DerivesQuery ts q) (hfits : ∀ t ∈ ts, t.Fits) (heq : c.ahead = ts ++ more)
    (hf : Follows 0 (c.passed ts more)) : (parseQuery c).out = (q, c.passed ts more) := by
  cases h with
  | @mk word ts us source clauses e hword hrange hbody =>
    simp only [List.forall_mem_append, List.forall_mem_cons] at hfits
    obtain ⟨⟨-, hfits⟩, hfits'⟩ := hfits
    have heql : c.ahead = word :: (ts ++ (us ++ more)) := by simpa using heq
    have hnext : Follows 0 ((c.passed [word] (ts ++ (us ++ more))).passed ts (us ++ more)) := by
      obtain ⟨t, rest, rfl, ht⟩ := hbody.starts
      exact follows_of_startsClause ht
    have hsource := hrange.read (c := c.passed [word] (ts ++ (us ++ more))) hfits rfl hnext
    have hrest := hbody.read (c := c.passed (word :: ts) (us ++ more)) hfits' rfl (hf.of_ahead rfl)
    have hfirst : (parseFirstFrom c).out = (source, c.passed (word :: ts) (us ++ more)) := by
      rw [parseFirstFrom, if_pos ((kind_of_ahead heql).trans hword), Parsed.out_since,
        advance_of_ahead heql, past_eq_passed, hsource, passed_passed]
      rfl
    obtain ⟨rfl, hd⟩ := Prod.mk.inj hfirst
    rw [parseQuery]
    dsimp only
    rw [Parsed.out_since, Parsed.out_map, hd, hrest, passed_passed]

/-! ## Entries -/

theorem out_parseParamsFrom_comma {c d : Cursor} {param : Ident} {t : Token}
    {rest : List Token} (h : c.expectIdent.out = (param, d)) (hd : d.ahead = t :: rest)
    (hkind : t.kind = .mark .comma) : (parseParamsFrom c).out =
      (param :: (parseParamsFrom (d.passed [t] rest)).out.1,
      (parseParamsFrom (d.passed [t] rest)).out.2) := by
  obtain ⟨rfl, rfl⟩ := Prod.mk.inj h
  rw [parseParamsFrom]
  dsimp only
  split
  · rename_i t' rest' heq
    obtain ⟨rfl, rfl⟩ := List.cons.inj (hd.symm.trans heq)
    rw [if_pos hkind]
    rfl
  · rename_i heq
    cases hd.symm.trans heq

theorem out_parseParamsFrom_last {c d : Cursor} {param : Ident}
    (h : c.expectIdent.out = (param, d)) (hkind : d.kind ≠ .mark .comma) :
    (parseParamsFrom c).out = ([param], d) := by
  obtain ⟨rfl, rfl⟩ := Prod.mk.inj h
  rw [parseParamsFrom]
  dsimp only
  split
  · rename_i t rest heq
    rw [if_neg (kind_of_ahead heq ▸ hkind)]
    rfl
  · rfl

theorem DerivesParamsFrom.read {ts : List Token} {params : List Ident}
    (h : DerivesParamsFrom ts params) : ∀ {c : Cursor} {more : List Token},
      c.ahead = ts ++ more → (c.passed ts more).kind ≠ .mark .comma →
      (parseParamsFrom c).out = (params, c.passed ts more) := by
  induction h with
  | @last x hx =>
    intro c more heq hkind
    exact out_parseParamsFrom_last (out_expectIdent more heq hx) hkind
  | @comma x t ts params hx hcomma _ ih =>
    intro c more heq hkind
    have hrest := ih (c := c.passed [x, t] (ts ++ more)) rfl hkind
    rw [out_parseParamsFrom_comma (out_expectIdent (t :: (ts ++ more)) heq hx) rfl hcomma,
      passed_passed, List.singleton_append, hrest, passed_passed]
    rfl

theorem DerivesParamsFrom.starts {ts : List Token} {params : List Ident}
    (h : DerivesParamsFrom ts params) : ∃ t rest, ts = t :: rest ∧ t.kind = .ident := by
  cases h with
  | last hx => exact ⟨_, _, rfl, hx⟩
  | comma hx _ _ => exact ⟨_, _, rfl, hx⟩

theorem DerivesParams.read {ts more : List Token} {params : List Ident} {c : Cursor}
    {right : Token} (h : DerivesParams ts params) (heq : c.ahead = ts ++ right :: more)
    (hright : right.kind = .mark .rightParen) :
    (parseParams c).out = (params, c.passed ts (right :: more)) := by
  cases h with
  | none =>
    rw [parseParams, if_pos ((kind_of_ahead heq).trans hright)]
    exact congrArg (Prod.mk []) (passed_nil heq).symm
  | some h =>
    have hne : c.kind ≠ .mark .rightParen := by
      obtain ⟨t, rest, rfl, ht⟩ := h.starts
      rw [kind_of_ahead heq, ht]
      decide
    rw [parseParams, if_neg hne, h.read heq (by rw [kind_passed, hright]; decide)]

theorem out_parseEntryRest {c d e f g : Cursor} {params : List Ident} {query : Query}
    (hd : c.expect (.mark .leftParen) = d) (hparams : (parseParams d).out = (params, e))
    (hf : (e.expect (.mark .rightParen)).expect (.mark .leftBrace) = f)
    (hquery : (parseQuery f).out = (query, g)) :
    (parseEntryRest c).out = ((params, query), closeEntry g) := by
  subst hd
  obtain ⟨rfl, rfl⟩ := Prod.mk.inj hparams
  subst hf
  obtain ⟨rfl, rfl⟩ := Prod.mk.inj hquery
  rfl

theorem closeEntry_of_ahead {c : Cursor} {t : Token} {rest : List Token}
    (h : c.ahead = t :: rest) (hkind : t.kind = .mark .rightBrace) :
    closeEntry c = c.past t rest := by
  rw [closeEntry, if_pos ((kind_of_ahead h).trans hkind), advance_of_ahead h]

theorem DerivesEntry.read {ts more : List Token} {e : Entry} {c : Cursor}
    (h : DerivesEntry ts e) (hfits : ∀ t ∈ ts, t.Fits) (heq : c.ahead = ts ++ more) :
    (parseEntry c).out = (e, c.passed ts more) := by
  cases h with
  | @mk x leftParen ts rightParen leftBrace us rightBrace params query hx hleft hparams hright
      hopen hquery hclose =>
    simp only [List.forall_mem_append, List.forall_mem_cons] at hfits
    let body := us ++ rightBrace :: more
    let inner := ts ++ rightParen :: leftBrace :: body
    have heql : c.ahead = x :: leftParen :: inner := by simpa [inner, body] using heq
    -- name, parameters, query and closing brace are read in turn, each up to where the next starts
    have hname := out_expectIdent (leftParen :: inner) heql hx
    have hd : (c.passed [x] (leftParen :: inner)).expect (.mark .leftParen) =
        c.passed [x, leftParen] inner := by
      rw [expect_of_ahead rfl hleft, past_passed]
      rfl
    have hparams' := hparams.read (c := c.passed [x, leftParen] inner) rfl hright
    rw [passed_passed] at hparams'
    have hf : ((c.passed ([x, leftParen] ++ ts) (rightParen :: leftBrace :: body)).expect
        (.mark .rightParen)).expect (.mark .leftBrace) =
        c.passed ([x, leftParen] ++ ts ++ [rightParen] ++ [leftBrace]) body := by
      rw [expect_of_ahead rfl hright, past_passed, expect_of_ahead rfl hopen, past_passed]
    have hfollows : Follows 0
        (c.passed ([x, leftParen] ++ ts ++ [rightParen] ++ [leftBrace] ++ us)
          (rightBrace :: more)) :=
      Follows.of_kind (k := .mark .rightBrace) hclose (by decide)
    have hquery' := hquery.read (c := c.passed ([x, leftParen] ++ ts ++ [rightParen] ++ [leftBrace])
      body) hfits.1.2.2.2 rfl (hfollows.of_ahead rfl)
    have hrest := out_parseEntryRest hd hparams' hf hquery'
    obtain ⟨hvalue, hafter⟩ := Prod.mk.inj hname
    have hend : closeEntry (c.passed ([x, leftParen] ++ ts ++ [rightParen] ++ [leftBrace] ++ us)
        (rightBrace :: more)) =
        c.passed (x :: leftParen :: ts ++ rightParen :: leftBrace :: us ++ [rightBrace]) more := by
      rw [closeEntry_of_ahead rfl hclose, past_passed]
      simp
    rw [parseEntry, Parsed.out_since, Parsed.out_map, hafter, hvalue, hrest, passed_passed, hend]

theorem DerivesEntry.starts {ts : List Token} {e : Entry} (h : DerivesEntry ts e) :
    ∃ t rest, ts = t :: rest ∧ t.kind = .ident := by
  cases h with
  | mk hx _ _ _ _ _ _ => exact ⟨_, _, rfl, hx⟩

/-! ## Programs -/

theorem out_parseDocument_of_nil {c : Cursor} (h : c.ahead = []) :
    (parseDocument c).out = (⟨[], []⟩, c) := by
  obtain ⟨_, _, _, _⟩ := c
  cases h
  rw [parseDocument]
  rfl

theorem out_parseDocument_use {c : Cursor} {t : Token} {rest : List Token}
    (h : c.ahead = t :: rest) (hk : t.kind = .keyword .useWord) :
    (parseDocument c).out =
      let name := (c.past t rest).expectIdent.out
      let more := (parseDocument (name.2.expect (.mark .semicolon))).out
      (more.1.addUse name.1, more.2) := by
  obtain ⟨_, _, _, _⟩ := c
  cases h
  rw [parseDocument]
  dsimp only
  rw [if_pos hk]
  rfl

theorem out_parseDocument_entry {c : Cursor} {t : Token} {rest : List Token}
    (h : c.ahead = t :: rest) (hk : t.kind = .ident) :
    (parseDocument c).out =
      let entry := (parseEntry c).out
      let more := (parseDocument entry.2).out
      (more.1.addEntry entry.1, more.2) := by
  obtain ⟨_, _, _, _⟩ := c
  cases h
  rw [parseDocument]
  dsimp only
  rw [if_neg (by simp [hk]), dif_pos hk]
  rfl

theorem out_parseDocument_of_other {c : Cursor} {t : Token} {rest : List Token}
    (h : c.ahead = t :: rest) (huse : t.kind ≠ .keyword .useWord)
    (hident : t.kind ≠ .ident) : (parseDocument c).out =
      (parseDocument (c.expected "`use` or an entry definition").advance).out := by
  obtain ⟨_, _, _, _⟩ := c
  cases h
  rw [parseDocument]
  dsimp only
  rw [if_neg huse, dif_neg hident]
  rfl

/-- The tokens of a program are read as that program. -/
theorem DerivesDocument.read {ts : List Token} {d : Document} (h : DerivesDocument ts d) :
    ∀ {c : Cursor}, (∀ t ∈ ts, t.Fits) → c.ahead = ts →
      (parseDocument c).out = (d, c.passed ts []) := by
  induction h with
  | nil =>
    intro c _ heq
    rw [out_parseDocument_of_nil heq, passed_nil heq]
  | @use word x semicolon ts d hword hx hsemicolon _ ih =>
    intro c hfits heq
    simp only [List.forall_mem_cons] at hfits
    -- the word, the name and the semicolon are passed, and the rest is read from behind them
    have hname := out_expectIdent (c := c.passed [word] (x :: semicolon :: ts)) (semicolon :: ts)
      rfl hx
    have hexpect := expect_of_ahead (c := c.passed [word, x] (semicolon :: ts)) rfl hsemicolon
    have hrest := ih (c := c.passed [word, x, semicolon] ts) hfits.2.2.2 rfl
    rw [out_parseDocument_use heq hword]
    dsimp only
    rw [past_eq_passed, hname, passed_passed, List.singleton_append, hexpect, past_passed,
      List.cons_append, List.singleton_append, hrest, passed_passed]
    rfl
  | @entry ts us e d hentry _ ih =>
    intro c hfits heq
    simp only [List.forall_mem_append] at hfits
    have hread := hentry.read hfits.1 heq
    have hrest := ih (c := c.passed ts us) hfits.2 rfl
    obtain ⟨t, rest, rfl, ht⟩ := hentry.starts
    rw [out_parseDocument_entry heq ht]
    dsimp only
    rw [hread, hrest, passed_passed]

end LineQuery.Syntax
