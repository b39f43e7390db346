import LineQuery.Proofs.Grammar.DocumentDerived
import LineQuery.Syntax.TokenRun

/-! # Reading by position, token by token

A reading of a row of tokens is followed beside a cursor in the same tokens. As long as both stand
at the same place a look at the row finds a token, so the reading fails at no step; what is left to
count is its turns. Each part of a reading comes to its end where the cursor does that reads the
same part, if it is given five turns for each token ahead and a few more, the number of which
depends on the part: a step that takes no token goes to a part that needs fewer.
-/

namespace LineQuery.Syntax

/-- The tokens of a text and the token that marks its end, the only one of its kind. -/
structure TokenText where
  tokens : List Token
  last : Token
  plain : ∀ t ∈ tokens, t.kind ≠ .eof
  ends : last.kind = .eof

/-- From `r` to `r'` each position was left for the next one. -/
def TokenReader.Onward (r r' : TokenReader) : Prop :=
  r.position ≤ r'.position ∧
    r'.trail = (List.range' r.position (r'.position - r.position)).reverse ++ r.trail

theorem TokenReader.Onward.refl (r : TokenReader) : r.Onward r := by
  simp [Onward]

/-- A step moves forward by one token and leaves its mark. -/
theorem TokenReader.Onward.step {r r' s : TokenReader} (h : r.Onward r')
    (hpos : s.position = r'.position + 1) (htrail : s.trail = r'.position :: r'.trail) :
    r.Onward s := by
  obtain ⟨hle, heq⟩ := h
  have hlen : s.position - r.position = r'.position - r.position + 1 := by omega
  have hlast : r.position + (r'.position - r.position) = r'.position := by omega
  refine ⟨by omega, ?_⟩
  rw [htrail, hlen, List.range'_concat, List.reverse_append, heq]
  simp [hlast]

namespace TokenText

variable (x : TokenText)

/-- The tokens in a row, with the end of the text behind them. -/
def row : List Token :=
  x.tokens ++ [x.last]

/-- The reader stands in the row, at its last token or before. -/
def Holds (r : TokenReader) : Prop :=
  r.tokens = x.row ∧ r.position ≤ x.tokens.length

/-- Turns enough for any part of a document that is read from the place of `r`. -/
def turns (r : TokenReader) : Nat :=
  5 * (x.tokens.length - r.position) + 5

/-- From every place in the row a reading that has turns enough comes to an end. It goes on
position by position, and not past the end of the text. -/
def Ends {α : Type} (run : Nat → TokenRun α) : Prop :=
  ∀ r, x.Holds r → ∀ turns, x.turns r ≤ turns →
    ∃ a r', (run turns).run r = some (a, r') ∧ x.Holds r' ∧ r.Onward r'

end TokenText

/-- A reading of a text that began at `first`, beside the reading of the same tokens by a
cursor for which the text ends at `stop`. -/
structure Walk where
  text : TokenText
  first : TokenReader
  stop : Nat

namespace Walk

variable {α β : Type} {w : Walk} {r r' : TokenReader} {c d : Cursor} {t : Token}
  {rest : List Token}

/-- The token for the end of the text stands where the cursor has the end. -/
def Exact (w : Walk) : Prop :=
  w.text.last.span = ⟨w.stop, w.stop⟩

/-- The reader and the cursor stand at the same place. -/
structure Stands (w : Walk) (r : TokenReader) (c : Cursor) : Prop where
  holds : w.text.Holds r
  onward : w.first.Onward r
  ahead : c.ahead = w.text.tokens.drop r.position
  behind : ∀ t, 0 < r.position → w.text.tokens[r.position - 1]? = some t → c.behind = t.span
  stop : c.stop = w.stop
  findings : w.Exact → r.findings = c.findings

/-- The reading `m` from `r` comes to an end where the cursor of `out` stands, and with the value
of `out` if the ends of the text agree. -/
def Reads (w : Walk) (m : TokenRun α) (r : TokenReader) (out : α × Cursor) : Prop :=
  ∃ a r', m.run r = some (a, r') ∧ w.Stands r' out.2 ∧ (w.Exact → a = out.1)

/-- A reader that reads nothing stands where it stood. -/
theorem Reads.pure {a v : α} (h : w.Stands r c) (ha : w.Exact → a = v) :
    w.Reads (pure a) r (v, c) :=
  ⟨a, r, rfl, h, ha⟩

/-- A step whose result is known. -/
theorem Reads.step {m : TokenRun α} {f : α → TokenRun β} {a : α} {out : β × Cursor}
    (hm : m.run r = some (a, r')) (h : w.Reads (f a) r' out) : w.Reads (m >>= f) r out := by
  obtain ⟨b, r'', hb, hr'', hv⟩ := h
  refine ⟨b, r'', ?_, hr'', hv⟩
  rw [StateT.run_bind, hm]
  exact hb

/-- A part of a reading, and then what is done with its value. -/
theorem Reads.bind {m : TokenRun α} {f : α → TokenRun β} {part : α × Cursor} {out : β × Cursor}
    (h : w.Reads m r part)
    (hf : ∀ a r', w.Stands r' part.2 → (w.Exact → a = part.1) → w.Reads (f a) r' out) :
    w.Reads (m >>= f) r out := by
  obtain ⟨a, r', hm, hr', ha⟩ := h
  exact Reads.step hm (hf a r' hr' ha)

/-! ## Single tokens -/

namespace Stands

theorem length_ahead (h : w.Stands r c) :
    c.ahead.length = w.text.tokens.length - r.position := by
  rw [h.ahead, List.length_drop]

theorem length_le (h : w.Stands r c) : c.ahead.length ≤ w.text.tokens.length := by
  rw [h.length_ahead]
  omega

/-- Behind a token that was there the reader is not at its first position. -/
theorem pos_of_lt (h : w.Stands r c) (hlt : c.ahead.length < w.text.tokens.length) :
    0 < r.position := by
  have := h.length_ahead
  omega

/-- The token at the position is the first of those in front. -/
theorem getElem?_of_ahead (h : w.Stands r c) (hc : c.ahead = t :: rest) :
    w.text.tokens[r.position]? = some t := by
  rw [h.ahead] at hc
  rw [← List.head?_drop, hc, List.head?_cons]

theorem current_of_ahead (h : w.Stands r c) (hc : c.ahead = t :: rest) :
    TokenRun.current.run r = some (t, r) := by
  have hget : r.tokens[r.position]? = some t := by
    rw [h.holds.1, TokenText.row, List.getElem?_append_left, h.getElem?_of_ahead hc]
    exact (List.getElem?_eq_some_iff.mp (h.getElem?_of_ahead hc)).1
  simp [TokenRun.current, hget]

/-- Behind the last token stands the one for the end, however far the position is. -/
theorem current_of_nil (h : w.Stands r c) (hc : c.ahead = []) :
    TokenRun.current.run r = some (w.text.last, r) := by
  have hpos : r.position = w.text.tokens.length := by
    have := h.length_ahead
    have := h.holds.2
    simp only [hc, List.length_nil] at *
    omega
  have hget : r.tokens[r.position]? = some w.text.last := by
    rw [h.holds.1, TokenText.row, hpos]
    simp
  simp [TokenRun.current, hget]

/-- The token at the position is of the kind that the cursor sees. -/
theorem current (h : w.Stands r c) : ∃ t, TokenRun.current.run r = some (t, r) ∧
    t.kind = c.kind ∧ (w.Exact → t.span = c.span) := by
  cases hc : c.ahead with
  | nil =>
    refine ⟨_, h.current_of_nil hc, ?_, fun hexact => ?_⟩
    · simp [Cursor.kind, hc, w.text.ends]
    · rw [hexact, Cursor.span, hc, h.stop]
  | cons t rest =>
    refine ⟨t, h.current_of_ahead hc, ?_, fun _ => ?_⟩
    · simp [Cursor.kind, hc]
    · simp [Cursor.span, hc]

theorem kind_ne_eof (h : w.Stands r c) (hc : c.ahead = t :: rest) : t.kind ≠ .eof :=
  w.text.plain t (List.mem_of_getElem? (h.getElem?_of_ahead hc))

/-- The reader behind the next token. -/
theorem past (h : w.Stands r c) (hc : c.ahead = t :: rest) :
    ∃ r', TokenRun.advance.run r = some ((), r') ∧ w.Stands r' (c.past t rest) := by
  have hget := h.getElem?_of_ahead hc
  have hlt : r.position < w.text.tokens.length := (List.getElem?_eq_some_iff.mp hget).1
  refine ⟨{ r with position := r.position + 1, trail := r.position :: r.trail }, ?_, ?_⟩
  · rw [TokenRun.advance, StateT.run_bind, h.current_of_ahead hc]
    simp [h.kind_ne_eof hc]
  · constructor
    · exact ⟨h.holds.1, hlt⟩
    · exact h.onward.step rfl rfl
    · have hdrop := h.ahead
      rw [hc, List.drop_eq_getElem_cons hlt] at hdrop
      exact (List.cons.inj hdrop).2
    · intro u _ hu
      simp only [Nat.add_sub_cancel, hget, Option.some.injEq] at hu
      exact hu ▸ rfl
    · exact h.stop
    · exact h.findings

/-- Both readers step alike, and both stop in front of the end. -/
theorem advance (h : w.Stands r c) :
    ∃ r', TokenRun.advance.run r = some ((), r') ∧ w.Stands r' c.advance := by
  cases hc : c.ahead with
  | nil =>
    refine ⟨r, ?_, ?_⟩
    · rw [TokenRun.advance, StateT.run_bind, h.current_of_nil hc]
      simp [w.text.ends]
    · simpa [Cursor.advance, hc] using h
  | cons t rest =>
    obtain ⟨r', hrun, hr'⟩ := h.past hc
    exact ⟨r', hrun, by simpa [Cursor.advance, hc] using hr'⟩

/-- Both readers report the same, as long as their spans agree. -/
theorem report (h : w.Stands r c) (code : Code) (message : String) {span span' : Span}
    (hspan : w.Exact → span' = span) :
    ∃ r', (TokenRun.report code message span').run r = some ((), r') ∧
      w.Stands r' (c.report code message span) := by
  refine ⟨{ r with findings := { code, message, span := span' } :: r.findings }, rfl, ?_⟩
  exact ⟨h.holds, h.onward, h.ahead, h.behind, h.stop, fun hexact => by
    simp [Cursor.report, h.findings hexact, hspan hexact]⟩

theorem expected (h : w.Stands r c) (what : String) :
    ∃ r', (TokenRun.expected what).run r = some ((), r') ∧ w.Stands r' (c.expected what) := by
  obtain ⟨t, ht, hkind, hspan⟩ := h.current
  rw [TokenRun.expected, Cursor.expected, StateT.run_bind, ht, ← hkind]
  dsimp only [Option.bind_eq_bind, Option.bind_some]
  split
  · exact ⟨r, rfl, h⟩
  · exact h.report _ _ hspan

theorem eat (h : w.Stands r c) (k : TokenKind) :
    ∃ r', (TokenRun.eat k).run r = some (decide (c.kind = k), r') ∧ w.Stands r' (c.eat k) := by
  obtain ⟨t, ht, hkind, -⟩ := h.current
  rw [TokenRun.eat, Cursor.eat, StateT.run_bind, ht, ← hkind]
  dsimp only [Option.bind_eq_bind, Option.bind_some]
  split
  · rename_i hk
    obtain ⟨r', hrun, hr'⟩ := h.advance
    refine ⟨r', ?_, hr'⟩
    rw [StateT.run_bind, hrun]
    simp [hk]
  · rename_i hk
    exact ⟨r, by simp [hk], h⟩

theorem expect (h : w.Stands r c) (k : TokenKind) :
    ∃ r', (TokenRun.expect k).run r = some (decide (c.kind = k), r') ∧
      w.Stands r' (c.expect k) := by
  obtain ⟨r', hrun, hr'⟩ := h.eat k
  rw [TokenRun.expect, Cursor.expect, StateT.run_bind, hrun]
  dsimp only [Option.bind_eq_bind, Option.bind_some]
  split
  · rename_i hk
    rw [decide_eq_true_iff] at hk
    refine ⟨r', by simp [hk], ?_⟩
    simpa [Cursor.eat, hk] using hr'
  · rename_i hk
    rw [decide_eq_true_iff] at hk
    rw [Cursor.eat, if_neg hk] at hr'
    obtain ⟨r'', hrun', hr''⟩ := hr'.expected k.describe
    refine ⟨r'', ?_, by rwa [if_neg hk]⟩
    rw [StateT.run_bind, hrun']
    simp [hk]

theorem lastSpan (h : w.Stands r c) (hlt : c.ahead.length < w.text.tokens.length) :
    TokenRun.lastSpan.run r = some (c.behind, r) := by
  have hpos := h.pos_of_lt hlt
  have hbound : r.position - 1 < w.text.tokens.length := by
    have := h.holds.2
    omega
  have hget := List.getElem?_eq_getElem hbound
  rw [h.behind _ hpos hget]
  simp [TokenRun.lastSpan, h.holds.1, TokenText.row, List.getElem?_append_left hbound, hget]

theorem expectIdent (h : w.Stands r c) : w.Reads TokenRun.expectIdent r c.expectIdent.out := by
  obtain ⟨t, ht, hkind, hspan⟩ := h.current
  refine Reads.step ht ?_
  split
  · rename_i hk
    obtain ⟨u, rest, hc, -⟩ := Cursor.ahead_of_kind (hkind ▸ hk) (by decide)
    obtain rfl : u = t := by simpa [ht] using (h.current_of_ahead hc).symm
    obtain ⟨r', hrun, hr'⟩ := h.past hc
    rw [out_expectIdent rest hc hk]
    exact Reads.step hrun (Reads.pure hr' fun _ => rfl)
  · rename_i hk
    obtain ⟨r', hrun, hr'⟩ := h.expected "identifier"
    rw [out_expectIdent_of_ne (hkind ▸ hk)]
    exact Reads.step hrun (Reads.pure hr' fun hexact => by rw [hspan hexact])

/-- The loop that passes over tokens stops where the cursor does, in as many turns as it passes
tokens. -/
theorem skipFrom (stop : TokenKind → Bool) : ∀ (ahead : List Token) {r : TokenReader}
    {c : Cursor}, w.Stands r c → c.ahead = ahead → ∀ turns, ahead.length < turns →
    ∃ r', (TokenRun.skipTo stop turns).run r = some ((), r') ∧
      w.Stands r' (c.skipFrom stop ahead)
  | _, _, _, _, _, 0, hturns => absurd hturns (Nat.not_lt_zero _)
  | [], r, c, h, hc, turns + 1, _ => by
    refine ⟨r, ?_, ?_⟩
    · rw [TokenRun.skipTo, StateT.run_bind, h.current_of_nil hc]
      simp [w.text.ends]
    · rw [Cursor.skipFrom, ← hc]
      exact h
  | t :: rest, r, c, h, hc, turns + 1, hturns => by
    rw [TokenRun.skipTo, StateT.run_bind, h.current_of_ahead hc, Cursor.skipFrom]
    simp only [Option.bind_eq_bind, Option.bind_some, h.kind_ne_eof hc, false_or]
    split
    · exact ⟨r, rfl, hc ▸ h⟩
    · obtain ⟨r', hrun, hr'⟩ := h.past hc
      rw [StateT.run_bind, hrun]
      exact skipFrom stop rest hr' rfl turns (Nat.lt_of_succ_lt_succ hturns)

theorem skipTo (h : w.Stands r c) (stop : TokenKind → Bool) (turns : Nat)
    (hturns : c.ahead.length < turns) :
    ∃ r', (TokenRun.skipTo stop turns).run r = some ((), r') ∧ w.Stands r' (c.skipTo stop) :=
  h.skipFrom stop c.ahead rfl turns hturns

theorem recoverToClause (h : w.Stands r c) (turns : Nat) (hturns : c.ahead.length < turns) :
    ∃ r', (TokenRun.recoverToClause turns).run r = some ((), r') ∧ w.Stands r' c.toClause :=
  h.skipTo Cursor.endsRecovery turns hturns

theorem integer (h : w.Stands r c) (t : Token) :
    w.Reads (TokenRun.integer t) r (intLiteral t c) := by
  unfold TokenRun.integer intLiteral
  cases Text.readInt64? t.text.toList with
  | some n => exact Reads.pure h fun _ => rfl
  | none =>
    obtain ⟨r', hrun, hr'⟩ := h.report .lexical
      ("integer literal `" ++ t.text ++ "` is too large") fun _ => Eq.refl t.span
    exact Reads.step hrun (Reads.pure hr' fun _ => rfl)

end Stands

/-! ## Expressions -/

/-- The spans of a bracketed part end with the token that was read last. -/
theorem Stands.lastSpan_of_lt {d : Cursor} (h : w.Stands r c) (hd : w.Stands r' d)
    (hlt : d.ahead.length < c.ahead.length) :
    TokenRun.lastSpan.run r' = some (d.behind, r') :=
  hd.lastSpan (Nat.lt_of_lt_of_le hlt h.length_le)

/-- A missing expression leaves a hole, and a token that can go on with the query is left for
the reader of clauses. -/
theorem Stands.missingExpr (h : w.Stands r c) (k : TokenKind) {span span' : Span}
    (hspan : w.Exact → span' = span) :
    w.Reads
      (do
        TokenRun.expected "expression"
        if staysForClause k then pure (Expr.hole span')
        else do
          TokenRun.advance
          pure (Expr.hole span')) r
      (Expr.hole span,
        if staysForClause k then c.expected "expression"
        else (c.expected "expression").advance) := by
  obtain ⟨r₁, hrun₁, hr₁⟩ := h.expected "expression"
  refine Reads.step hrun₁ ?_
  split
  · exact Reads.pure hr₁ fun hexact => by rw [hspan hexact]
  · obtain ⟨r₂, hrun₂, hr₂⟩ := hr₁.advance
    exact Reads.step hrun₂ (Reads.pure hr₂ fun hexact => by rw [hspan hexact])

-- Each call spends a turn, so the recursion is on the turns. The numbers of turns below are chosen
-- so that a part which calls another one at the same place is given more than that one.

mutual

/-- Reading an expression ends after turns that grow with the number of tokens, where the cursor
does. -/
theorem reads_exprAbove : ∀ (turns above : Nat) {r : TokenReader} {c : Cursor}, w.Stands r c →
    5 * c.ahead.length + 3 ≤ turns →
    w.Reads (TokenRun.exprAbove turns above) r (parseExpr above c).out
  | 0, _, _, _, _, hturns => absurd hturns (by omega)
  | turns + 1, above, r, c, h, hturns => by
    rw [out_parseExpr, out_parseOperand, TokenRun.exprAbove]
    refine Reads.bind (reads_prefixExpr turns h (by omega)) fun first r' hr' hfirst => ?_
    have := (parsePrimary c).noLonger
    exact reads_operators turns above hr' hfirst (by simp only [Parsed.out]; omega)

/-- The loop over operators moves forward in each round, so it ends. -/
theorem reads_operators : ∀ (turns above : Nat) {left left' : Expr} {r : TokenReader} {c : Cursor},
    w.Stands r c → (w.Exact → left' = left) → 5 * c.ahead.length + 2 ≤ turns →
    w.Reads (TokenRun.operators turns above left') r
      (parseOperators above (parseIndexes left c).out.1 (parseIndexes left c).out.2).out
  | 0, _, _, _, _, _, _, _, hturns => absurd hturns (by omega)
  | turns + 1, above, left, left', r, c, h, hleft, hturns => by
    rw [TokenRun.operators]
    cases hc : c.ahead with
    | nil =>
      have hkind : c.kind = .eof := by simp [Cursor.kind, hc]
      have hstops : Cursor.Stops above c := ⟨by simp [hkind], by simp [hkind, binaryOp?]⟩
      rw [out_parseIndexes_of_ne hstops.index, out_parseOperators_of_stops hstops]
      refine Reads.step (h.current_of_nil hc) ?_
      simp only [w.text.ends, binaryOp?, reduceCtorEq, if_false]
      exact Reads.pure h hleft
    | cons t rest =>
      refine Reads.step (h.current_of_ahead hc) ?_
      have hlen : c.ahead.length = rest.length + 1 := by rw [hc, List.length_cons]
      split
      · rename_i hk
        rw [out_parseIndexes hc hk]
        refine Reads.bind (reads_postfixIndex turns h hc hleft (by omega)) fun e r' hr' he => ?_
        have := (parseExpr 0 (c.past t rest)).noLonger
        have := (parseExpr 0 (c.past t rest)).rest.length_expect (.mark .rightBracket)
        exact reads_operators turns above hr' he (by
          simp only [Parsed.out, Cursor.ahead_past] at *
          omega)
      · rename_i hk
        rw [out_parseIndexes_of_ne (Cursor.kind_of_ahead hc ▸ hk)]
        cases hop : binaryOp? t.kind with
        | none =>
          have hstops : Cursor.Stops above c := ⟨Cursor.kind_of_ahead hc ▸ hk, by
            simp [Cursor.kind_of_ahead hc, hop]⟩
          rw [out_parseOperators_of_stops hstops]
          exact Reads.pure h hleft
        | some op =>
          dsimp only
          split
          · rename_i hlevel
            obtain ⟨r', hrun, hr'⟩ := h.past hc
            rw [out_parseOperators hc hop hlevel]
            have := (parseExpr op.level (c.past t rest)).noLonger
            simp only [Cursor.ahead_past] at this
            refine Reads.step hrun (Reads.bind (reads_exprAbove turns op.level hr' (by
              simp only [Cursor.ahead_past]; omega)) fun right r₁ hr₁ hright => ?_)
            have hboth : w.Exact → Expr.binary op left' right (left'.span.merge right.span) =
                .binary op left (parseExpr op.level (c.past t rest)).out.1
                  (left.span.merge (parseExpr op.level (c.past t rest)).out.1.span) :=
              fun hexact => by rw [hleft hexact, hright hexact]
            have hnext := reads_operators turns above hr₁ hboth (by
              simp only [Parsed.out]
              omega)
            -- The right operand has taken all indexes.
            have hne : (parseExpr op.level (c.past t rest)).out.2.kind ≠ .mark .leftBracket :=
              (stops_parseExpr op.level (c.past t rest)).index
            rwa [out_parseIndexes_of_ne hne] at hnext
          · rename_i hlevel
            have hstops : Cursor.Stops above c := by
              refine ⟨Cursor.kind_of_ahead hc ▸ hk, fun op' hop' => ?_⟩
              rw [Cursor.kind_of_ahead hc, hop, Option.some.injEq] at hop'
              exact hop' ▸ Nat.not_lt.mp hlevel
            rw [out_parseOperators_of_stops hstops]
            exact Reads.pure h hleft

/-- The loop over indexes moves forward in each round, so it ends. -/
theorem reads_postfixIndex : ∀ (turns : Nat) {base base' : Expr} {r : TokenReader} {c : Cursor}
    {t : Token} {rest : List Token}, w.Stands r c → c.ahead = t :: rest →
    (w.Exact → base' = base) → 5 * c.ahead.length ≤ turns →
    w.Reads (TokenRun.postfixIndex turns base') r
      (.index base (parseExpr 0 (c.past t rest)).out.1 (base.span.merge
        ((parseExpr 0 (c.past t rest)).out.2.expect (.mark .rightBracket)).behind),
      (parseExpr 0 (c.past t rest)).out.2.expect (.mark .rightBracket))
  | 0, _, _, _, _, _, _, _, hc, _, hturns => by simp [hc] at hturns
  | turns + 1, base, base', r, c, t, rest, h, hc, hbase, hturns => by
    have hlen : c.ahead.length = rest.length + 1 := by rw [hc, List.length_cons]
    obtain ⟨r', hrun, hr'⟩ := h.past hc
    rw [TokenRun.postfixIndex]
    refine Reads.step hrun (Reads.bind (reads_exprAbove turns 0 hr' (by
      simp only [Cursor.ahead_past]; omega)) fun p r₁ hr₁ hp => ?_)
    obtain ⟨r₂, hrun₂, hr₂⟩ := hr₁.expect (.mark .rightBracket)
    have := (parseExpr 0 (c.past t rest)).noLonger
    have := (parseExpr 0 (c.past t rest)).rest.length_expect (.mark .rightBracket)
    refine Reads.step hrun₂ (Reads.step (h.lastSpan_of_lt hr₂ (by
      simp only [Parsed.out, Cursor.ahead_past] at *; omega)) (Reads.pure hr₂ fun hexact => ?_))
    rw [hbase hexact, hp hexact]

theorem reads_prefixExpr : ∀ (turns : Nat) {r : TokenReader} {c : Cursor}, w.Stands r c →
    5 * c.ahead.length + 1 ≤ turns → w.Reads (TokenRun.prefixExpr turns) r (parsePrimary c).out
  | 0, _, _, _, hturns => absurd hturns (by omega)
  | turns + 1, r, c, h, hturns => by
    rw [TokenRun.prefixExpr]
    -- a position at the end of the row has nothing ahead, where the hole starts
    cases hc : c.ahead with
    | nil =>
      have hout : (parsePrimary c).out = (.hole c.span, c.expected "expression") := by
        obtain ⟨_, _, _, _⟩ := c
        cases hc
        rw [parsePrimary]
        rfl
      rw [hout]
      refine Reads.step (h.current_of_nil hc) ?_
      simp only [w.text.ends, unaryOp?]
      refine h.missingExpr .eof fun hexact => ?_
      rw [hexact, Cursor.span, hc, h.stop]
    | cons t rest =>
      have hlen : c.ahead.length = rest.length + 1 := by rw [hc, List.length_cons]
      obtain ⟨r', hrun, hr'⟩ := h.past hc
      have hlen' : (c.past t rest).ahead.length = rest.length := rfl
      have hident := h.expectIdent
      refine Reads.step (h.current_of_ahead hc) ?_
      -- both readers ask for a prefix operator before they look at the kind of the token
      cases hop : unaryOp? t.kind with
      | some op =>
        rw [out_parsePrimary_unary hc hop]
        refine Reads.step hrun
          (Reads.bind (reads_exprAbove turns tightestLevel hr' (by omega)) fun e r₁ hr₁ he => ?_)
        exact Reads.pure hr₁ fun hexact => by rw [he hexact]
      | none =>
        rw [out_parsePrimary_of_none hc hop]
        cases hk : t.kind with
        | int => exact Reads.step hrun (hr'.integer t)
        | str | malformed => exact Reads.step hrun (Reads.pure hr' fun _ => rfl)
        | keyword k =>
          cases k with
          | trueWord | falseWord => exact Reads.step hrun (Reads.pure hr' fun _ => rfl)
          | _ => exact h.missingExpr _ fun _ => rfl
        | mark m =>
          cases m with
          | leftParen =>
            refine Reads.step hrun
              (Reads.bind (reads_exprAbove turns 0 hr' (by omega)) fun e r₁ hr₁ he => ?_)
            obtain ⟨r₂, hrun₂, hr₂⟩ := hr₁.expect (.mark .rightParen)
            exact Reads.step hrun₂ (Reads.pure hr₂ he)
          | leftBracket =>
            refine Reads.step hrun
              (Reads.bind (reads_commaList turns _ hr' (by omega)) fun items r₁ hr₁ hitems => ?_)
            have := (parseItems (.mark .rightBracket) (c.past t rest)).noLonger
            refine Reads.step (h.lastSpan_of_lt hr₁ (by simp only [Parsed.out]; omega))
              (Reads.pure hr₁ fun hexact => by rw [hitems hexact])
          | _ => exact h.missingExpr _ fun _ => rfl
        | ident =>
          rw [out_expectIdent rest hc hk, ← Cursor.past_eq_passed] at hident
          refine Reads.bind hident fun name r₁ hr₁ hname => ?_
          -- a name is a call if a parenthesis stands behind it, and a variable if not
          obtain ⟨u, hu, hukind, -⟩ := hr₁.current
          refine Reads.step hu ?_
          dsimp only at hr₁ hukind ⊢
          rw [hukind]
          split
          · obtain ⟨r₂, hrun₂, hr₂⟩ := hr₁.advance
            have := (parseItems (.mark .rightParen) (c.past t rest).advance).noLonger
            have := (c.past t rest).length_advance
            refine Reads.step hrun₂
              (Reads.bind (reads_commaList turns _ hr₂ (by omega)) fun args r₃ hr₃ hargs => ?_)
            refine Reads.step (h.lastSpan_of_lt hr₃ (by simp only [Parsed.out]; omega))
              (Reads.pure hr₃ fun hexact => by rw [hname hexact, hargs hexact])
          · exact Reads.pure hr₁ fun hexact => by rw [hname hexact]
        | eof => exact h.missingExpr _ fun _ => rfl

theorem reads_commaList : ∀ (turns : Nat) (close : TokenKind) {r : TokenReader} {c : Cursor},
    w.Stands r c → 5 * c.ahead.length + 5 ≤ turns →
    w.Reads (TokenRun.commaList turns close) r (parseItems close c).out
  | 0, _, _, _, _, hturns => absurd hturns (by omega)
  | turns + 1, close, r, c, h, hturns => by
    obtain ⟨r', hrun, hr'⟩ := h.eat close
    rw [TokenRun.commaList]
    refine Reads.step hrun ?_
    by_cases hk : c.kind = close
    · rw [parseItems, if_pos hk]
      rw [Cursor.eat, if_pos hk] at hr'
      simp only [hk, decide_true, if_true]
      exact Reads.pure hr' fun _ => rfl
    · rw [out_parseItems hk]
      rw [Cursor.eat, if_neg hk] at hr'
      simpa [hk] using reads_commaItems turns close hr' (by omega)

/-- Each item of a list is followed by a comma or ends the list, so the loop over items ends. -/
theorem reads_commaItems : ∀ (turns : Nat) (close : TokenKind) {r : TokenReader} {c : Cursor},
    w.Stands r c → 5 * c.ahead.length + 4 ≤ turns →
    w.Reads (TokenRun.commaItems turns close) r (parseItemsFrom close c).out
  | 0, _, _, _, _, hturns => absurd hturns (by omega)
  | turns + 1, close, r, c, h, hturns => by
    rw [TokenRun.commaItems]
    refine Reads.bind (reads_exprAbove turns 0 h (by omega)) fun item r₁ hr₁ hitem => ?_
    obtain ⟨r₂, hrun₂, hr₂⟩ := hr₁.eat (.mark .comma)
    refine Reads.step hrun₂ ?_
    -- behind an item either a comma or the closing mark is next, in both readers
    by_cases hk : (parseExpr 0 c).out.2.kind = .mark .comma
    · obtain ⟨t, rest, hd, ht⟩ := Cursor.ahead_of_kind hk (by decide)
      rw [Cursor.eat, if_pos hk, Cursor.advance_of_ahead hd] at hr₂
      rw [out_parseItemsFrom_comma rfl hd ht]
      simp only [hk, decide_true, if_true]
      have := (parseExpr 0 c).noLonger
      have hlen : (parseExpr 0 c).rest.ahead.length = rest.length + 1 := by
        rw [show (parseExpr 0 c).rest.ahead = t :: rest from hd, List.length_cons]
      refine Reads.bind (reads_commaItems turns close hr₂ (by
        simp only [Cursor.ahead_past]; omega)) fun items r₃ hr₃ hitems => ?_
      exact Reads.pure hr₃ fun hexact => by
        rw [hitem hexact, hitems hexact]
        rfl
    · rw [Cursor.eat, if_neg hk] at hr₂
      rw [out_parseItemsFrom_last rfl hk]
      obtain ⟨r₃, hrun₃, hr₃⟩ := hr₂.expect close
      simp only [hk, decide_false]
      exact Reads.step hrun₃ (Reads.pure hr₃ fun hexact => by
        rw [hitem hexact]
        rfl)

end

end Walk

end LineQuery.Syntax
