import LineQuery.Proofs.Grammar.Reading
import LineQuery.Syntax.Parser

/-! # Where the parser finds something

A finding of the parser is about the token that comes next, about an integer that has just been
read, or about the end of the text. So whatever is reported stands where a token starts or at the
end, and a string is reported only where something other than an expression is expected: the tokens
ahead of a cursor and the findings behind it are followed through all of the parser.
-/

namespace LineQuery.Syntax

/-- Whether one of some tokens starts at `n`. -/
def StartsAt (ts : List Token) (n : Nat) : Prop :=
  ∃ t ∈ ts, n = t.span.start

/-- The places at which something is found in a text with the tokens `ts` that ends at `stop`: the
starts of tokens, and the end. -/
def Place (ts : List Token) (stop n : Nat) : Prop :=
  StartsAt ts n ∨ n = stop

/-- What is said of a string where something other than an expression is expected. -/
def SaysMisplaced (code : Code) (message : String) : Prop :=
  code = .grammar ∧
    ∃ wanted, wanted ≠ "expected expression" ∧ message = wanted ++ ", found string"

/-- A finding in a text with the tokens `ts` that ends at `stop`: it is about one of the tokens, and
about a string only if that is misplaced, or it is about the end. -/
def Found (ts : List Token) (stop : Nat) (f : Finding) : Prop :=
  (∃ t ∈ ts, f.span = t.span ∧ (t.kind = .str → SaysMisplaced f.code f.message)) ∨
    f.span = ⟨stop, stop⟩

/-- A cursor in a text with the tokens `ts` that ends at `stop`: its tokens are among those, and
what has been found is about the text. -/
structure Cursor.Placed (ts : List Token) (stop : Nat) (c : Cursor) : Prop where
  ahead : c.ahead ⊆ ts
  stop_eq : c.stop = stop
  findings : ∀ f ∈ c.findings, Found ts stop f

variable {ts : List Token} {stop : Nat} {c : Cursor}

/-- What was found stands where a token starts, or at the end. -/
theorem Found.place {f : Finding} (h : Found ts stop f) : Place ts stop f.span.start := by
  rcases h with ⟨t, ht, hspan, -⟩ | hspan
  · exact .inl ⟨t, ht, congrArg Span.start hspan⟩
  · exact .inr (congrArg Span.start hspan)

theorem saysMisplaced_expected {what : String} (h : what ≠ "expression") :
    SaysMisplaced .grammar ("expected " ++ what ++ ", found " ++ TokenKind.str.describe) := by
  refine ⟨rfl, "expected " ++ what, fun heq => h ?_, ?_⟩
  · exact String.append_right_inj "expected " |>.mp heq
  · rw [String.append_assoc]
    rfl

/-- No keyword and no mark is called an expression. -/
theorem describe_ne_expression (k : TokenKind) : k.describe ≠ "expression" := by
  cases k with
  | keyword k => cases k <;> decide
  | mark m => cases m <;> decide
  | malformed why => exact (by decide : "invalid token" ≠ "expression")
  | _ => decide

namespace Cursor

/-- Before anything is read nothing has been found. -/
theorem placed_start (ts : List Token) (stop : Nat) : Placed ts stop (start ts stop) :=
  ⟨List.Subset.refl ts, rfl, nofun⟩

namespace Placed

/-- What comes next is found, and a string only where it is misplaced. -/
theorem found_span (h : Placed ts stop c) {code : Code} {message : String}
    (hstr : c.kind = .str → SaysMisplaced code message) :
    Found ts stop { code, message, span := c.span } := by
  unfold Cursor.span
  unfold Cursor.kind at hstr
  split
  · rename_i t rest heq
    rw [heq] at hstr
    exact .inl ⟨t, h.ahead (heq ▸ List.mem_cons_self), rfl, hstr⟩
  · exact .inr (by rw [h.stop_eq])

theorem report (h : Placed ts stop c) {code : Code} {message : String} {span : Span}
    (hfound : Found ts stop { code, message, span }) :
    Placed ts stop (c.report code message span) :=
  ⟨h.ahead, h.stop_eq, List.forall_mem_cons.mpr ⟨hfound, h.findings⟩⟩

theorem expected (h : Placed ts stop c) {what : String} (hwhat : what ≠ "expression") :
    Placed ts stop (c.expected what) := by
  unfold Cursor.expected
  split
  · exact h
  · refine h.report (h.found_span fun hkind => ?_)
    rw [hkind]
    exact saysMisplaced_expected hwhat

/-- A string is an expression, so none is missing in front of it. -/
theorem expectedExpression (h : Placed ts stop c) (hkind : c.kind ≠ .str) :
    Placed ts stop (c.expected "expression") := by
  unfold Cursor.expected
  split
  · exact h
  · exact h.report (h.found_span fun hstr => absurd hstr hkind)

/-- Passing a token moves to the place of the next one. -/
theorem past (h : Placed ts stop c) {t : Token} {rest : List Token}
    (heq : c.ahead = t :: rest) : Placed ts stop (c.past t rest) :=
  ⟨fun _ hu => h.ahead (heq ▸ List.mem_cons_of_mem t hu), h.stop_eq, h.findings⟩

theorem advance (h : Placed ts stop c) : Placed ts stop c.advance := by
  unfold Cursor.advance
  split
  · rename_i t rest heq
    exact h.past heq
  · exact h

theorem eat (h : Placed ts stop c) (k : TokenKind) : Placed ts stop (c.eat k) := by
  unfold Cursor.eat
  split
  · exact h.advance
  · exact h

theorem expect (h : Placed ts stop c) (k : TokenKind) : Placed ts stop (c.expect k) := by
  unfold Cursor.expect
  split
  · exact h.advance
  · exact h.expected (describe_ne_expression k)

/-- Passing over tokens up to some kind of token finds nothing. -/
theorem skipFrom (ends : TokenKind → Bool) {us : List Token} (h : Placed ts stop c)
    (hus : us ⊆ ts) : Placed ts stop (c.skipFrom ends us) := by
  induction us generalizing c with
  | nil => exact ⟨List.nil_subset ts, h.stop_eq, h.findings⟩
  | cons u us ih =>
    have hrest : us ⊆ ts := List.Subset.trans (List.subset_cons_self u us) hus
    unfold Cursor.skipFrom
    split
    · exact ⟨hus, h.stop_eq, h.findings⟩
    · exact ih ⟨hrest, h.stop_eq, h.findings⟩ hrest

theorem skipTo (h : Placed ts stop c) (ends : TokenKind → Bool) :
    Placed ts stop (c.skipTo ends) :=
  h.skipFrom ends h.ahead

theorem expectIdent (h : Placed ts stop c) : Placed ts stop c.expectIdent.rest := by
  unfold Cursor.expectIdent
  split
  · rename_i t rest heq
    split
    · exact h.past heq
    · exact h.expected (by decide)
  · exact h.expected (by decide)

/-- An integer that is too large is reported where it stands. -/
theorem intLiteral (h : Placed ts stop c) {t : Token} {rest : List Token}
    (heq : c.ahead = t :: rest) (hkind : t.kind = .int) :
    Placed ts stop (intLiteral t (c.past t rest)).2 := by
  have hstr : t.kind ≠ .str := by
    rw [hkind]
    decide
  unfold Syntax.intLiteral
  split
  · exact h.past heq
  · exact (h.past heq).report
      (.inl ⟨t, h.ahead (heq ▸ List.mem_cons_self), rfl, fun h => absurd h hstr⟩)

end Placed

end Cursor

open Cursor

/-! ## Expressions -/

mutual

/-- Whatever is found in an expression stands at a token. -/
theorem placed_parseExpr (above : Nat) (c : Cursor) (h : Placed ts stop c) :
    Placed ts stop (parseExpr above c).rest := by
  have hle := (parseOperand c).noLonger
  rw [parseExpr]
  exact placed_parseOperators above _ _ (placed_parseOperand c h)
termination_by 5 * c.ahead.length + 3
decreasing_by all_goals omega

theorem placed_parseOperators (above : Nat) (left : Expr) (c : Cursor) (h : Placed ts stop c) :
    Placed ts stop (parseOperators above left c).rest := by
  rw [parseOperators]
  split
  · exact h
  · rename_i t rest heq
    have hlt := Cursor.length_past_lt heq
    split
    · exact h
    · rename_i op hop
      split
      · have hle := (parseExpr op.level (c.past t rest)).noLonger
        exact placed_parseOperators above _ _ (placed_parseExpr op.level _ (h.past heq))
      · exact h
termination_by 5 * c.ahead.length
decreasing_by all_goals omega

theorem placed_parseOperand (c : Cursor) (h : Placed ts stop c) :
    Placed ts stop (parseOperand c).rest := by
  have hle := (parsePrimary c).noLonger
  rw [parseOperand]
  exact placed_parseIndexes _ _ (placed_parsePrimary c h)
termination_by 5 * c.ahead.length + 2
decreasing_by all_goals omega

theorem placed_parseIndexes (base : Expr) (c : Cursor) (h : Placed ts stop c) :
    Placed ts stop (parseIndexes base c).rest := by
  rw [parseIndexes]
  split
  · exact h
  · rename_i t rest heq
    have hlt := Cursor.length_past_lt heq
    split
    · have hle := (parseExpr 0 (c.past t rest)).noLonger
      have hle' := (parseExpr 0 (c.past t rest)).rest.length_expect (.mark .rightBracket)
      exact placed_parseIndexes _ _ ((placed_parseExpr 0 _ (h.past heq)).expect _)
    · exact h
termination_by 5 * c.ahead.length
decreasing_by all_goals omega

theorem placed_parsePrimary (c : Cursor) (h : Placed ts stop c) :
    Placed ts stop (parsePrimary c).rest := by
  rw [parsePrimary]
  split
  · rename_i heq
    exact h.expectedExpression (by simp [Cursor.kind, heq])
  · rename_i t rest heq
    have hlt := Cursor.length_past_lt heq
    have hpast := h.past heq
    have hkind := Cursor.kind_of_ahead heq
    split
    · exact placed_parseExpr tightestLevel _ hpast
    · split
      · rename_i hint
        exact h.intLiteral heq hint
      · exact hpast
      · exact hpast
      · exact hpast
      · exact (placed_parseExpr 0 _ hpast).expect _
      · exact placed_parseItems _ _ hpast
      · split
        · have hle := (c.past t rest).length_advance
          exact placed_parseItems _ _ hpast.advance
        · exact hpast
      · exact hpast
      · rename_i hstr _ _ _ _ _ _
        -- a string is an operand, so what is reported here is about another token
        have hnone : c.kind ≠ .str := fun h => hstr (hkind.symm.trans h)
        split
        · exact h.expectedExpression hnone
        · exact (h.expectedExpression hnone).advance
termination_by 5 * c.ahead.length + 1
decreasing_by all_goals omega

theorem placed_parseItems (close : TokenKind) (c : Cursor) (h : Placed ts stop c) :
    Placed ts stop (parseItems close c).rest := by
  rw [parseItems]
  split
  · exact h.advance
  · exact placed_parseItemsFrom close c h
termination_by 5 * c.ahead.length + 5
decreasing_by all_goals omega

theorem placed_parseItemsFrom (close : TokenKind) (c : Cursor) (h : Placed ts stop c) :
    Placed ts stop (parseItemsFrom close c).rest := by
  have hle := (parseExpr 0 c).noLonger
  have hitem := placed_parseExpr 0 c h
  rw [parseItemsFrom]
  dsimp only
  split
  · rename_i t rest heq
    have hlt := Cursor.length_past_lt heq
    split
    · exact placed_parseItemsFrom close _ (hitem.past heq)
    · exact hitem.expect close
  · exact hitem.expect close
termination_by 5 * c.ahead.length + 4
decreasing_by all_goals omega

end

/-! ## Clauses and entries -/

theorem placed_parseIndexName (h : Placed ts stop c) : Placed ts stop (parseIndexName c).rest := by
  unfold parseIndexName
  split
  · exact h.advance.expectIdent
  · exact h

theorem placed_parseFrom (h : Placed ts stop c) : Placed ts stop (parseFrom c).rest := by
  have hnames := placed_parseIndexName h.expectIdent
  unfold parseFrom
  dsimp only
  split
  · exact placed_parseExpr 0 _ hnames.advance
  · exact (hnames.expected (describe_ne_expression _)).skipTo _

theorem placed_parseLet (h : Placed ts stop c) : Placed ts stop (parseLet c).rest :=
  placed_parseExpr 0 _ (h.expectIdent.expect _)

theorem placed_parseFirstFrom (h : Placed ts stop c) : Placed ts stop (parseFirstFrom c).rest := by
  unfold parseFirstFrom
  split
  · exact placed_parseFrom h.advance
  · refine (h.report (h.found_span fun hkind => ?_)).skipTo _
    rw [hkind]
    exact ⟨rfl, "a query must start with `from`", by decide, rfl⟩

theorem placed_noSelect (h : Placed ts stop c) (hkind : c.kind ≠ .str) :
    Placed ts stop (noSelect c).rest :=
  h.report (h.found_span fun hstr => absurd hstr hkind)

/-- Whatever is found in clauses stands at a token, also behind a recovery. -/
theorem placed_parseClauses (c : Cursor) (h : Placed ts stop c) :
    Placed ts stop (parseClauses c).rest := by
  rw [parseClauses]
  dsimp only
  split
  · rename_i heq
    exact placed_noSelect h (by simp [Cursor.kind, heq])
  · rename_i t rest heq
    have hlt := Cursor.length_past_lt heq
    have hpast := h.past heq
    split
    · have hle := (parseFrom (c.past t rest)).noLonger
      exact placed_parseClauses _ (placed_parseFrom hpast)
    · have hle := (parseExpr 0 (c.past t rest)).noLonger
      exact placed_parseClauses _ (placed_parseExpr 0 _ hpast)
    · have hle := (parseLet (c.past t rest)).noLonger
      exact placed_parseClauses _ (placed_parseLet hpast)
    · have hle := (parseExpr 0 (c.past t rest)).noLonger
      exact placed_parseClauses _ (placed_parseExpr 0 _ hpast)
    · have hle := (parseExpr 0 (c.past t rest)).noLonger
      exact placed_parseClauses _ (placed_parseExpr 0 _ hpast)
    · exact placed_parseExpr 0 _ hpast
    · rename_i hbrace
      have hkind := (Cursor.kind_of_ahead heq).trans hbrace
      exact placed_noSelect h (by simp [hkind])
    · have hlt' := length_pastClause_lt heq
      have hnext : Placed ts stop (c.expected "a query clause").advance.toClause :=
        (h.expected (by decide)).advance.skipTo _
      exact placed_parseClauses _ hnext
termination_by c.ahead.length
decreasing_by all_goals omega

theorem placed_parseQuery (h : Placed ts stop c) : Placed ts stop (parseQuery c).rest :=
  placed_parseClauses _ (placed_parseFirstFrom h)

theorem placed_parseParamsFrom (c : Cursor) (h : Placed ts stop c) :
    Placed ts stop (parseParamsFrom c).rest := by
  have hle := c.expectIdent.noLonger
  have hparam := h.expectIdent
  rw [parseParamsFrom]
  dsimp only
  split
  · rename_i t rest heq
    have hlt := Cursor.length_past_lt heq
    split
    · exact placed_parseParamsFrom _ (hparam.past heq)
    · exact hparam
  · exact hparam
termination_by c.ahead.length
decreasing_by all_goals omega

theorem placed_parseParams (h : Placed ts stop c) : Placed ts stop (parseParams c).rest := by
  unfold parseParams
  split
  · exact h
  · exact placed_parseParamsFrom c h

theorem placed_closeEntry (h : Placed ts stop c) : Placed ts stop (closeEntry c) := by
  unfold closeEntry
  split
  · exact h.advance
  · split
    · rename_i hstarts
      have hkind : c.kind ≠ .str := by
        intro hstr
        rw [hstr] at hstarts
        exact absurd hstarts (by decide)
      exact ((h.report (h.found_span fun hstr => absurd hstr hkind)).skipTo _).eat _
    · exact ((h.expected (describe_ne_expression _)).skipTo _).eat _

theorem placed_parseEntry (h : Placed ts stop c) : Placed ts stop (parseEntry c).rest :=
  placed_closeEntry (placed_parseQuery
    (((placed_parseParams (h.expectIdent.expect _)).expect _).expect _))

/-! ## Programs -/

/-- Whatever is found in a document stands at a token, also behind a recovery. -/
theorem placed_parseDocument (c : Cursor) (h : Placed ts stop c) :
    Placed ts stop (parseDocument c).rest := by
  rw [parseDocument]
  dsimp only
  split
  · exact h
  · rename_i t rest heq
    have hlt := Cursor.length_past_lt heq
    split
    · have hle := (c.past t rest).expectIdent.noLonger
      have hle' := (c.past t rest).expectIdent.rest.length_expect (.mark .semicolon)
      exact placed_parseDocument _ ((h.past heq).expectIdent.expect _)
    · split
      · rename_i hkind
        have hlt' := length_parseEntry_lt ((kind_of_ahead heq).trans hkind)
        exact placed_parseDocument _ (placed_parseEntry h)
      · have hlt' : (c.expected "`use` or an entry definition").advance.ahead.length <
            c.ahead.length := by
          simp [Cursor.advance, heq]
        exact placed_parseDocument _ (h.expected (by decide)).advance
termination_by c.ahead.length
decreasing_by all_goals omega

/-- All that is found in reading a text is about one of its tokens, or about its end. -/
theorem found_of_parse {text : String} {f : Finding} (hf : f ∈ (parse text).2) :
    Found (tokens text) text.utf8ByteSize f := by
  rcases List.mem_append.mp hf with hf | hf
  · obtain ⟨t, ht, hfound⟩ := List.mem_filterMap.mp hf
    unfold Token.finding? at hfound
    split at hfound
    · rename_i why hkind
      cases Option.some.inj hfound
      exact .inl ⟨t, ht, rfl, fun hstr => nomatch hkind.symm.trans hstr⟩
    · exact nomatch hfound
  · exact (placed_parseDocument _ (placed_start _ _)).findings f (List.mem_reverse.mp hf)

/-- It stands where a token starts, or at the end. -/
theorem place_of_parse {text : String} {f : Finding} (hf : f ∈ (parse text).2) :
    Place (tokens text) text.utf8ByteSize f.span.start :=
  (found_of_parse hf).place

end LineQuery.Syntax
