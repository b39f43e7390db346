import LineQuery.Proofs.Grammar.DocumentDerived
import LineQuery.Proofs.Grammar.DocumentReading
import LineQuery.Proofs.Grammar.FindingPlaces
import LineQuery.Proofs.Grammar.Frame
import LineQuery.Proofs.Grammar.FrontEnd
import LineQuery.Proofs.Grammar.Placement

/-! # Reading `use` lines

A `use` line declares its name if that is no reserved word. Of a reserved word the parser says that
it is no name, but it goes on at the next line all the same: a mistake in one `use` line is told of
tokens of that line, and the lines behind it are read as they are without it.
-/

namespace LineQuery.Syntax

open Cursor

namespace Cursor

theorem stop_expected (c : Cursor) (what : String) : (c.expected what).stop = c.stop := by
  unfold expected
  split <;> rfl

theorem stop_advance (c : Cursor) : c.advance.stop = c.stop := by
  unfold advance
  split <;> rfl

/-- The cursor behind the next token, after a finding about it. -/
theorem ahead_advance_expected {c : Cursor} {t : Token} {rest : List Token}
    (h : c.ahead = t :: rest) (what : String) : (c.expected what).advance.ahead = rest := by
  have hahead : (c.expected what).ahead = t :: rest := by rw [ahead_expected, h]
  rw [advance_of_ahead hahead, ahead_past]

/-- A token that was not expected is not passed. -/
theorem ahead_expect_of_ne {c : Cursor} {k : TokenKind} (h : c.kind ≠ k) :
    (c.expect k).ahead = c.ahead := by
  rw [expect, if_neg h, ahead_expected]

theorem stop_expect (c : Cursor) (k : TokenKind) : (c.expect k).stop = c.stop := by
  unfold expect
  split
  · exact c.stop_advance
  · exact c.stop_expected _

end Cursor

theorem Found.mono {ts us : List Token} {stop : Nat} {f : Finding} (h : Found ts stop f)
    (hsub : ts ⊆ us) : Found us stop f :=
  h.imp_left fun ⟨t, ht, hspan⟩ => ⟨t, hsub ht, hspan⟩

/-- The document with some libraries in front of its own. -/
def Document.addUses (libraries : List Ident) (d : Document) : Document :=
  { d with uses := libraries ++ d.uses }

/-- Reading on from `c` gives what reading on from `d` gives, with `libraries` in front. They, and
what is found on the way, are about the tokens `ts`. -/
structure Passes (ts : List Token) (c d : Cursor) (libraries : List Ident) : Prop where
  stop : d.stop = c.stop
  out : (parseDocument c).out =
    ((parseDocument d).out.1.addUses libraries, (parseDocument d).out.2)
  libraries : ∀ id ∈ libraries, StartsAt ts id.span.start
  findings : ∀ f ∈ d.findings, f ∈ c.findings ∨ Found ts c.stop f

namespace Passes

variable {ts us : List Token} {c d e : Cursor} {libraries more : List Ident} {t u : Token}
  {rest : List Token}

theorem refl (ts : List Token) (c : Cursor) : Passes ts c c [] :=
  ⟨rfl, rfl, nofun, fun _ hf => .inl hf⟩

/-- Declarations are passed one after another. -/
theorem trans (h : Passes ts c d libraries) (h' : Passes ts d e more) :
    Passes ts c e (libraries ++ more) where
  stop := h'.stop.trans h.stop
  out := by
    rw [h.out, h'.out]
    simp [Document.addUses]
  libraries := List.forall_mem_append.mpr ⟨h.libraries, h'.libraries⟩
  findings f hf := by
    rcases h'.findings f hf with hf | hfound
    · exact h.findings f hf
    · exact .inr (h.stop ▸ hfound)

theorem mono (h : Passes ts c d libraries) (hsub : ts ⊆ us) : Passes us c d libraries where
  stop := h.stop
  out := h.out
  libraries id hid := by
    obtain ⟨t, ht, hstart⟩ := h.libraries id hid
    exact ⟨t, hsub ht, hstart⟩
  findings f hf := (h.findings f hf).imp_right fun hfound => hfound.mono hsub

/-- What is missing is found at the token that stands in its place. -/
theorem found_expected (hc : c.ahead = t :: rest) (ht : t ∈ ts) (hstr : t.kind ≠ .str)
    (what : String) : ∀ f ∈ (c.expected what).findings, f ∈ c.findings ∨ Found ts c.stop f := by
  intro f hf
  unfold Cursor.expected at hf
  split at hf
  · exact .inl hf
  · rcases List.mem_cons.mp hf with rfl | hf
    · exact .inr (.inl ⟨t, ht, by rw [Cursor.span, hc], fun h => absurd h hstr⟩)
    · exact .inl hf

/-- A token that starts no declaration is passed over. -/
theorem other (hc : c.ahead = t :: rest) (ht : t ∈ ts) (huse : t.kind ≠ .keyword .useWord)
    (hident : t.kind ≠ .ident) (hstr : t.kind ≠ .str) :
    Passes ts c (c.expected "`use` or an entry definition").advance [] where
  stop := by rw [stop_advance, stop_expected]
  out := out_parseDocument_of_other hc huse hident
  libraries := nofun
  findings f hf := by
    rw [findings_advance] at hf
    exact found_expected hc ht hstr _ f hf

/-- A `use` in front of a token that is no name declares a library without a name. -/
theorem missing (hc : c.ahead = t :: u :: rest) (ht : t.kind = .keyword .useWord) (hu : u ∈ ts)
    (hident : u.kind ≠ .ident) (hstr : u.kind ≠ .str) :
    Passes ts c (((c.past t (u :: rest)).expected "identifier").expect (.mark .semicolon))
      [.missing u.span] where
  stop := by rw [stop_expect, stop_expected, Cursor.past]
  out := by
    have hname : (c.past t (u :: rest)).expectIdent.out =
        (.missing u.span, (c.past t (u :: rest)).expected "identifier") :=
      out_expectIdent_of_ne hident
    rw [out_parseDocument_use hc ht, hname]
    rfl
  libraries := List.forall_mem_singleton.mpr ⟨u, hu, rfl⟩
  findings f hf := by
    have hname : ∀ f ∈ ((c.past t (u :: rest)).expected "identifier").findings,
        f ∈ c.findings ∨ Found ts c.stop f :=
      found_expected (c := c.past t (u :: rest)) rfl hu hstr _
    have hahead : ((c.past t (u :: rest)).expected "identifier").ahead = u :: rest := by simp
    unfold Cursor.expect at hf
    split at hf
    · rw [findings_advance] at hf
      exact hname f hf
    · rcases found_expected hahead hu hstr _ f hf with hf | hfound
      · exact hname f hf
      · exact .inr (by rwa [stop_expected] at hfound)

/-- A `use` of a name declares it. -/
theorem named {x semicolon : Token} (hc : c.ahead = t :: x :: semicolon :: rest)
    (ht : t.kind = .keyword .useWord) (hx : x ∈ ts) (hident : x.kind = .ident)
    (hsemicolon : semicolon.kind = .mark .semicolon) :
    Passes ts c (c.passed [t, x, semicolon] rest) [x.ident] where
  stop := rfl
  out := by
    have hname := out_expectIdent (c := c.passed [t] (x :: semicolon :: rest)) (semicolon :: rest)
      rfl hident
    have hexpect := expect_of_ahead (c := c.passed [t, x] (semicolon :: rest)) rfl hsemicolon
    rw [out_parseDocument_use hc ht]
    dsimp only
    rw [past_eq_passed, hname, passed_passed, List.singleton_append, hexpect, past_passed]
    rfl
  libraries := List.forall_mem_singleton.mpr ⟨x, hx, rfl⟩
  findings _ hf := .inl hf

/-- A `use` of a reserved word is no declaration, but reading goes on behind its semicolon. -/
theorem reserved {word semicolon : Token} {k : Keyword}
    (hc : c.ahead = t :: word :: semicolon :: rest) (ht : t.kind = .keyword .useWord)
    (hword : word.kind = .keyword k) (hsemicolon : semicolon.kind = .mark .semicolon)
    (hmem : word ∈ ts ∧ semicolon ∈ ts) :
    ∃ d libraries, d.ahead = rest ∧ Passes ts c d libraries := by
  have hfirst := missing hc ht hmem.1 (by rw [hword]; nofun) (by rw [hword]; nofun)
  have hmissing : ((c.past t (word :: semicolon :: rest)).expected "identifier").ahead =
      word :: semicolon :: rest := by rw [ahead_expected, ahead_past]
  have hahead : (((c.past t (word :: semicolon :: rest)).expected "identifier").expect
      (.mark .semicolon)).ahead = word :: semicolon :: rest := by
    rw [ahead_expect_of_ne (by rw [kind_of_ahead hmissing, hword]; nofun), hmissing]
  generalize ((c.past t (word :: semicolon :: rest)).expected "identifier").expect
    (.mark .semicolon) = d at hfirst hahead
  by_cases hk : k = .useWord
  · -- The word is read as the start of another declaration, and only the name is missing in it.
    have hsecond := missing hahead (hk ▸ hword) hmem.2 (by rw [hsemicolon]; nofun)
      (by rw [hsemicolon]; nofun)
    refine ⟨_, _, ?_, hfirst.trans hsecond⟩
    have hnext : ((d.past word (semicolon :: rest)).expected "identifier").ahead =
        semicolon :: rest := by rw [ahead_expected, ahead_past]
    rw [expect_of_ahead hnext hsemicolon, ahead_past]
  -- the word and the semicolon start no declaration, and are reported one by one
  · have hsecond := other hahead hmem.1 (by simpa [hword] using hk) (by rw [hword]; nofun)
      (by rw [hword]; nofun)
    have hnext := ahead_advance_expected hahead "`use` or an entry definition"
    have hthird := other hnext hmem.2 (by rw [hsemicolon]; nofun) (by rw [hsemicolon]; nofun)
      (by rw [hsemicolon]; nofun)
    exact ⟨_, _, ahead_advance_expected hnext _, (hfirst.trans hsecond).trans hthird⟩

end Passes

/-! ## Lines -/

variable {c : Cursor} {offset : Nat} {library : String} {more : List Token}

/-- A `use` line of a name declares it. -/
theorem passes_useLine (hc : c.ahead = useTokens offset library ++ more)
    (hkind : wordKind library.toList = .ident) :
    Passes (useTokens offset library) c (c.passed (useTokens offset library) more)
      [⟨library, ⟨offset + 4, offset + 4 + Text.byteLength library.toList⟩⟩] :=
  Passes.named hc rfl (by simp [useTokens]) hkind rfl

/-- A `use` line of a reserved word is left with the line. -/
theorem passes_reservedLine {k : Keyword} (hc : c.ahead = useTokens offset library ++ more)
    (hkind : wordKind library.toList = .keyword k) :
    ∃ d libraries, d.ahead = more ∧ Passes (useTokens offset library) c d libraries := by
  exact Passes.reserved hc rfl hkind rfl (by simp [useTokens])

/-- Of a reserved word in a `use` line the parser says that it is no name. -/
theorem found_of_reservedLine {k : Keyword} (hc : c.ahead = useTokens offset library ++ more)
    (hkind : wordKind library.toList = .keyword k) :
    { code := .grammar, message := "expected identifier, found `" ++ k.text ++ "`",
      span := ⟨offset + 4, offset + 4 + Text.byteLength library.toList⟩ } ∈
        (parseDocument c).rest.findings := by
  have hout := out_parseDocument_use hc rfl
  dsimp only [List.cons_append, List.nil_append] at hout
  rw [out_expectIdent_of_ne (by rw [kind_of_ahead rfl, hkind]; nofun)] at hout
  dsimp only at hout
  generalize hd : Cursor.expected _ "identifier" = d at hout
  have hrest : (parseDocument c).rest = (parseDocument (d.expect (.mark .semicolon))).rest :=
    congrArg Prod.snd hout
  obtain ⟨new, hnew, -⟩ := ((reading_expect d .semicolon).reports).trans
    (reading_parseDocument (d.expect (.mark .semicolon))).reports
  rw [hrest, hnew, ← hd, expected, kind_of_ahead rfl, hkind]
  exact List.mem_append_right _ List.mem_cons_self

/-- A word is a name or reserved. -/
theorem wordKind_cases (word : List Char) :
    wordKind word = .ident ∨ ∃ k, wordKind word = .keyword k := by
  unfold wordKind
  split
  · exact .inr ⟨_, rfl⟩
  · exact .inl rfl

/-- The tokens of the `use` lines of some libraries, the first of which starts at `offset`. -/
def useLineTokens : Nat → List String → List Token
  | _, [] => []
  | offset, library :: libraries =>
    useTokens offset library ++
      useLineTokens (offset + Text.byteLength (Program.useLine library).toList) libraries

/-- The preamble is scanned as three tokens for each import. -/
theorem scanFrom_useLines {rest : List Char} : ∀ (libraries : List String) (offset : Nat),
    (∀ library ∈ libraries, Word library.toList) →
    scanFrom 0 offset
        ((libraries.flatMap fun library => (Program.useLine library).toList) ++ rest) =
      useLineTokens offset libraries ++ scanFrom 0 (offset + Text.byteLength
        (libraries.flatMap fun library => (Program.useLine library).toList)) rest
  | [], _, _ => rfl
  | library :: libraries, offset, hwords => by
    obtain ⟨hlibrary, hlibraries⟩ := List.forall_mem_cons.mp hwords
    rw [List.flatMap_cons, List.append_assoc, scanFrom_useLine hlibrary,
      scanFrom_useLines libraries _ hlibraries, Text.byteLength_append, useLineTokens,
      List.append_assoc, Nat.add_assoc]

/-- The tokens of the preamble start in it. -/
theorem start_lt_of_mem_useLineTokens {t : Token} : ∀ {libraries : List String} {offset : Nat},
    t ∈ useLineTokens offset libraries → t.span.start < offset + Text.byteLength
      (libraries.flatMap fun library => (Program.useLine library).toList)
  | [], _, ht => nomatch ht
  | library :: libraries, offset, ht => by
    rw [List.flatMap_cons, Text.byteLength_append, byteLength_useLine]
    rcases List.mem_append.mp ht with ht | ht
    · simp only [useTokens, List.mem_cons, List.not_mem_nil, or_false] at ht
      rcases ht with rfl | rfl | rfl <;> dsimp only <;> omega
    · have hlater := start_lt_of_mem_useLineTokens ht
      rw [byteLength_useLine] at hlater
      omega

/-- Whatever words the `use` lines name, reading goes on behind them. -/
theorem passes_useLines : ∀ (libraries : List String) (offset : Nat) {c : Cursor},
    c.ahead = useLineTokens offset libraries ++ more →
    ∃ d ids, d.ahead = more ∧ Passes (useLineTokens offset libraries) c d ids
  | [], _, c, hc => ⟨c, [], hc, .refl [] c⟩
  | library :: libraries, offset, c, hc => by
    rw [useLineTokens, List.append_assoc] at hc
    obtain ⟨d, ids, hd, hfirst⟩ : ∃ d ids, d.ahead = useLineTokens
        (offset + Text.byteLength (Program.useLine library).toList) libraries ++ more ∧
        Passes (useTokens offset library) c d ids := by
      rcases wordKind_cases library.toList with hkind | ⟨k, hkind⟩
      · exact ⟨_, _, rfl, passes_useLine hc hkind⟩
      · exact passes_reservedLine hc hkind
    obtain ⟨e, ids', he, hrest⟩ := passes_useLines libraries _ hd
    rw [useLineTokens]
    exact ⟨e, ids ++ ids', he, (hfirst.mono (List.subset_append_left _ _)).trans
      (hrest.mono (List.subset_append_right _ _))⟩

/-! ## Declarations further on -/

variable {ts : List Token} {stop : Nat}

/-- A name, or the place where one is missing, is about what comes next. -/
theorem Cursor.Placed.place_expectIdent (h : Placed ts stop c) :
    Place ts stop c.expectIdent.value.span.start := by
  unfold Cursor.expectIdent
  split
  · rename_i t rest heq
    have ht : t ∈ ts := h.ahead (heq ▸ List.mem_cons_self)
    split
    · exact .inl ⟨t, ht, rfl⟩
    · exact .inl ⟨t, ht, by simp [Ident.missing, Cursor.span, heq]⟩
  · rename_i heq
    exact .inr (by simp [Ident.missing, Cursor.span, heq, h.stop_eq])

/-- The libraries that are declared from a cursor on are declared by the tokens ahead of it. -/
theorem place_of_uses (c : Cursor) (h : Placed ts stop c) :
    ∀ id ∈ (parseDocument c).out.1.uses, Place ts stop id.span.start := by
  cases hc : c.ahead with
  | nil =>
    rw [out_parseDocument_of_nil hc]
    exact List.forall_mem_nil _
  | cons t rest =>
    have hlt := Cursor.length_past_lt hc
    by_cases huse : t.kind = .keyword .useWord
    · rw [out_parseDocument_use hc huse]
      have hle := (c.past t rest).expectIdent.noLonger
      have hle' := (c.past t rest).expectIdent.rest.length_expect (.mark .semicolon)
      exact List.forall_mem_cons.mpr ⟨(h.past hc).place_expectIdent,
        place_of_uses _ ((h.past hc).expectIdent.expect _)⟩
    · by_cases hident : t.kind = .ident
      · rw [out_parseDocument_entry hc hident]
        have hlt' := length_parseEntry_lt ((kind_of_ahead hc).trans hident)
        exact place_of_uses _ (placed_parseEntry h)
      · rw [out_parseDocument_of_other hc huse hident]
        have hlt' : (c.expected "`use` or an entry definition").advance.ahead.length <
            c.ahead.length := by
          rw [ahead_advance_expected hc, hc]
          exact Nat.lt_succ_self _
        exact place_of_uses _ (h.expected (by decide)).advance
termination_by c.ahead.length
decreasing_by
  · exact Nat.lt_of_le_of_lt (Nat.le_trans hle' hle) hlt
  · exact hlt'
  · exact hlt'

/-! ## One declaration in a text -/

/-- A text is read as one that declares `id` behind the libraries `earlier` and in front of what is
in `later`. All other declarations, and all that the parser finds, are about the tokens `front` and
`back` or about the end of the text. If nothing is found, `later` derives from `back`. -/
structure Declares (text : String) (front back : List Token) (id : Ident) (earlier : List Ident)
    (later : Document) : Prop where
  read : (parse text).1 = later.addUses (earlier ++ [id])
  others : ∀ other ∈ earlier ++ later.uses,
    Place (front ++ back) text.utf8ByteSize other.span.start
  findings : ∀ f ∈ (parse text).2, Place (front ++ back) text.utf8ByteSize f.span.start
  derives : (parse text).2 = [] → DerivesDocument back later

theorem span_of_finding? {t : Token} {f : Finding} (h : t.finding? = some f) : f.span = t.span := by
  unfold Token.finding? at h
  split at h
  · exact (Option.some.inj h) ▸ rfl
  · exact nomatch h

/-- The tokens of a `use` line of a name are well-formed. -/
theorem finding?_of_mem_useTokens (hkind : wordKind library.toList = .ident) :
    ∀ t ∈ useTokens offset library, t.finding? = none := by
  intro t ht
  simp only [useTokens, List.mem_cons, List.not_mem_nil, or_false] at ht
  rcases ht with rfl | rfl | rfl <;> simp [Token.finding?, hkind]

/-- A text whose reading goes on at the cursor `e`, behind well-formed tokens that declare `id`. -/
theorem Declares.of_out {text : String} {front own : List Token} {id : Ident} {earlier : List Ident}
    {e : Cursor} (htokens : tokens text = front ++ (own ++ e.ahead))
    (hown : ∀ t ∈ own, t.finding? = none)
    (hearlier : ∀ other ∈ earlier, StartsAt front other.span.start)
    (he : Placed (front ++ e.ahead) text.utf8ByteSize e)
    (hout : (parseDocument (.start (tokens text) text.utf8ByteSize)).out =
      ((parseDocument e).out.1.addUses (earlier ++ [id]), (parseDocument e).out.2)) :
    Declares text front e.ahead id earlier (parseDocument e).value := by
  have hfound : (parse text).2 = (tokens text).filterMap Token.finding? ++
      (parseDocument e).rest.findings.reverse :=
    congrArg (fun out : Document × Cursor =>
      (tokens text).filterMap Token.finding? ++ out.2.findings.reverse) hout
  refine ⟨congrArg Prod.fst hout, ?_, ?_, fun hnil => ?_⟩
  · refine List.forall_mem_append.mpr ⟨fun other hother => .inl ?_, place_of_uses e he⟩
    obtain ⟨t, ht, hstart⟩ := hearlier other hother
    exact ⟨t, List.mem_append_left _ ht, hstart⟩
  · intro f hf
    rw [hfound] at hf
    rcases List.mem_append.mp hf with hf | hf
    · obtain ⟨t, ht, hmalformed⟩ := List.mem_filterMap.mp hf
      refine .inl ⟨t, ?_, congrArg Span.start (span_of_finding? hmalformed)⟩
      rw [htokens, List.mem_append, List.mem_append] at ht
      rcases ht with ht | ht | ht
      · exact List.mem_append_left _ ht
      · exact nomatch (hown t ht).symm.trans hmalformed
      · exact List.mem_append_right _ ht
    · exact ((placed_parseDocument e he).findings f (List.mem_reverse.mp hf)).place
  · obtain ⟨hwf, -⟩ := (parse_findings_eq_nil_iff text).mp hnil
    rw [hfound, List.append_eq_nil_iff, List.reverse_eq_nil_iff] at hnil
    have hwf' : e.WellFormed := fun t ht => hwf t (by simp [htokens, ht])
    obtain ⟨ts, heq, -, hderives⟩ := (reading_parseDocument e).derives hwf' hnil.2
    -- Reading goes on to the end, so what derives are all tokens behind the declaration.
    rw [ahead_parseDocument, List.append_nil] at heq
    exact heq ▸ hderives

/-- A name that is no reserved word is declared by its `use` line, whatever words stand in the `use`
lines before it and whatever comes behind it. -/
theorem exists_declares {text name : String} {libraries : List String} {rest : List Char}
    (htext : text.toList = (libraries.flatMap fun library => (Program.useLine library).toList) ++
      ((Program.useLine name).toList ++ rest))
    (hlibraries : ∀ library ∈ libraries, Word library.toList) (hname : Word name.toList)
    (hkind : wordKind name.toList = .ident) :
    let offset := Text.byteLength
      (libraries.flatMap fun library => (Program.useLine library).toList)
    ∃ earlier later, Declares text (useLineTokens 0 libraries)
      (scanFrom 0 (offset + Text.byteLength (Program.useLine name).toList) rest)
      ⟨name, ⟨offset + 4, offset + 4 + Text.byteLength name.toList⟩⟩ earlier later := by
  intro offset
  generalize hback : scanFrom 0 (offset + Text.byteLength (Program.useLine name).toList) rest = back
  generalize hfront : useLineTokens 0 libraries = front
  have htokens : tokens text = front ++ (useTokens offset name ++ back) := by
    rw [tokens, htext, scanFrom_useLines libraries 0 hlibraries, Nat.zero_add,
      scanFrom_useLine hname, hfront, hback]
  -- The cursor `d` is in front of the declaration, and `e` is behind it.
  obtain ⟨d, earlier, hd, hpasses⟩ := passes_useLines libraries 0
    (c := .start (tokens text) text.utf8ByteSize) (hfront ▸ htokens)
  rw [hfront] at hpasses
  have hpasses' := passes_useLine hd hkind
  generalize he : d.passed (useTokens offset name) back = e at hpasses'
  obtain rfl : e.ahead = back := he ▸ rfl
  have hplaced : Placed (front ++ e.ahead) text.utf8ByteSize e := by
    refine ⟨List.subset_append_right _ _, hpasses'.stop.trans hpasses.stop, fun f hf => ?_⟩
    rw [← he] at hf
    exact ((hpasses.findings f hf).resolve_left List.not_mem_nil).mono
      (List.subset_append_left _ _)
  have hout := ((hpasses.mono (List.subset_append_left front _)).trans
    (hpasses'.mono (List.subset_append_right front _))).out
  exact ⟨earlier, (parseDocument e).value, .of_out htokens (finding?_of_mem_useTokens hkind)
    hpasses.libraries hplaced hout⟩

end LineQuery.Syntax
