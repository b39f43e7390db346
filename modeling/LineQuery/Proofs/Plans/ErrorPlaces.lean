import LineQuery.Proofs.Plans.Faults
import LineQuery.Proofs.Plans.Runnable
import LineQuery.Proofs.Script.BodyTokens

/-! # Errors point into the lines of the user

The position of a node is the place in the body at which its expression starts: there stands the
first token of the expression that is not an opening parenthesis. So each fault of a run points at
such a token, also where the body closes its entry and adds others.
-/

namespace LineQuery

open LineQuery.Syntax (Word Token Expr DerivesExpr Braced tokens parse leading? inOrder_scanFrom)
open LineQuery.Text (byteLength byteLength_append encodeUtf8)

namespace Program

/-! ## Programs with words for libraries -/

/-- A text, or a library whose name is a word. -/
def Part.Worded : Part → Prop
  | library name => Word name.toList
  | text _ => True

theorem Part.Worded.lined {part : Part} (h : part.Worded) : part.Lined := by
  cases part with
  | library name => exact Word.not_mem h (by decide)
  | text text => trivial

/-- If the parts of a program name libraries by words, so does the program. -/
theorem word_of_mem_imports_ofParts {parts : List Part} (hparts : ∀ part ∈ parts, part.Worded) :
    ∀ library ∈ (ofParts parts).imports, Word library.toList := by
  intro library hlibrary
  rcases mem_imports_ofParts hlibrary with hpart | hdefault
  · exact hparts _ hpart
  · exact word_of_mem_defaultImports hdefault

/-! ## Tokens that are shown -/

/-- A position shows a token in a line of the body, behind `front` and in front of `back`. Lines
and columns are counted from one, columns in bytes. -/
structure Shows (p : Program) (pos : Position) (t : Token) (line : String)
    (front back : List Char) : Prop where
  one_le_line : 1 ≤ pos.line
  line_le : pos.line ≤ p.body.length
  line_eq : p.body[pos.line - 1]? = some line
  cut : line.toList = front ++ (t.text.toList ++ back)
  column_eq : pos.column = byteLength front + 1
  column_lt : pos.column - 1 < (encodeUtf8 line).length
  start_eq : t.span.start = p.bodyOffset (pos.line - 1) + (pos.column - 1)

variable {p : Program}

/-- No token is empty. -/
theorem byteLength_pos_of_token {t : Token} (ht : t ∈ tokens p.text) :
    0 < byteLength t.text.toList := by
  obtain ⟨before, c, rest, -, hstands⟩ := Syntax.exists_stands ht
  have hsize := c.utf8Size_pos
  rw [hstands.text, byteLength]
  omega

/-- What starts in a line of the body is shown in that line. -/
theorem Lined.userPosition_of_body (hp : p.Lined) {k n : Nat} {line : String}
    (hk : p.body[k]? = some line) {span : Span} (hstart : span.start = p.bodyOffset k + n)
    (hn : n ≤ (encodeUtf8 line).length) : p.context.userPosition span = ⟨k + 1, n + 1⟩ := by
  have hlt : k < p.body.length := (List.getElem?_eq_some_iff.mp hk).1
  have hposition : (LineIndex.ofText p.text).position span.start =
      ⟨p.preambleLines + k + 1, n + 1⟩ := by
    rw [hp.position_of_body hk (by omega) (by omega), hstart, Nat.add_sub_cancel_left]
  have hfind : p.userLines.find? (p.preambleLines + k + 1) = some k :=
    UserLines.find?_eq_some_iff.mpr ⟨rfl, hlt⟩
  unfold ScopeContext.userPosition context
  dsimp only
  rw [hposition, hfind]

/-- What starts with a token between braces has the position that shows the token. -/
theorem exists_shows (hlined : p.Lined) (hwords : ∀ library ∈ p.imports, Word library.toList)
    {us : List Token} (hus : Braced (tokens p.text) us) {t : Token} (ht : t ∈ us) {span : Span}
    (hspan : span.start = t.span.start) :
    ∃ line front back, p.Shows (p.context.userPosition span) t line front back := by
  obtain ⟨left, hleft, right, hright, hleftBrace, hrightBrace, hbehind, hbefore⟩ :=
    hus.exists_around (inOrder_scanFrom _ 0 0) ht
  have hmem : t ∈ tokens p.text := hus.isInfix.subset ht
  obtain ⟨k, line, front, back, hk, hcut, hplace⟩ := exists_line_of_token hwords hleft hmem hright
    hleftBrace hrightBrace hbehind hbefore
  have hbytes : (encodeUtf8 line).length =
      byteLength front + (byteLength t.text.toList + byteLength back) := by
    rw [Text.length_encodeUtf8, hcut, byteLength_append, byteLength_append]
  have hlt : k < p.body.length := (List.getElem?_eq_some_iff.mp hk).1
  have huser : p.context.userPosition span = ⟨k + 1, byteLength front + 1⟩ :=
    hlined.userPosition_of_body hk (hspan.trans hplace) (by omega)
  -- the token is not empty, so it starts before its line ends
  have hpos := byteLength_pos_of_token hmem
  rw [huser]
  refine ⟨line, front, back, Nat.le_add_left 1 k, hlt, hk, hcut, rfl, ?_, hplace⟩
  show byteLength front + 1 - 1 < _
  omega

end Program

/-- A node that comes from tokens between braces is shown where the first of the tokens of its
expression stands that is not an opening parenthesis. -/
theorem Node.ComesFrom.exists_shows {p : Program} (hlined : p.Lined)
    (hwords : ∀ library ∈ p.imports, Word library.toList) {es : List Expr} {us : List Token}
    (hus : Braced (tokens p.text) us) {node : Node} (h : node.ComesFrom p.context es us) :
    ∃ e ∈ es, ∃ above ts bound t line front back, ts <:+: tokens p.text ∧
      DerivesExpr above ts e ∧ Lowers p.context bound e node ∧ leading? ts = some t ∧
      p.Shows node.pos t line front back := by
  obtain ⟨e, he, above, ts, bound, hts, hderives, hlowers⟩ := h
  have hinfix : ts <:+: tokens p.text := hts.trans hus.isInfix
  have horder : Syntax.InOrder ts := (inOrder_scanFrom _ 0 0).sublist hinfix.sublist
  -- the position of the node is the one of its expression, which starts with this token
  obtain ⟨t, hleading, hstart⟩ := hderives.startsIn horder
  have ht : t ∈ us := hts.subset (List.mem_of_find?_eq_some hleading)
  obtain ⟨line, front, back, hshows⟩ := Program.exists_shows hlined hwords hus ht hstart
  rw [hlowers.pos_eq]
  exact ⟨e, he, above, ts, bound, t, line, front, back, hinfix, hderives, hlowers, hleading, hshows⟩

open Program (Part ofParts)

/-- In a program that is put together from texts and from libraries whose names are words, whose
text is shorter than a word of 32 bits can count, and that compiles, each node of a plan stands for
a part of an expression of its entry, and that derives from tokens of the program. The position of
the node shows, in a line of the body and at the start of a character, the first of these tokens
that is not an opening parenthesis; words hold the position of this token in the text. Each fault of
a run, for any extra arguments and any input, has the position of such a node, whether the run is
asked for its items one by one or goes on to its end. -/
theorem errors_point_into_body {parts : List Part} (hparts : ∀ part ∈ parts, part.Worded)
    (hsize : (encodeUtf8 (ofParts parts).text).length < UInt32.size)
    {c : Compilation} (hc : compile (ofParts parts) = .ok c) :
    let p := ofParts parts
    ∀ entry ∈ c.artifact.entries, ∃ source ∈ (parse p.text).1.entries,
      LowersEntry p.context source entry ∧
      (∀ node ∈ entry.plan.parts, ∃ e ∈ source.parts, ∃ above ts bound t line front back,
        ts <:+: tokens p.text ∧ DerivesExpr above ts e ∧ Lowers p.context bound e node ∧
        leading? ts = some t ∧ p.Shows node.pos t line front back ∧ p.Tabled t.span.start) ∧
      ∀ args input,
        (∀ k e, entry.plan.item? args input k = some (.error (.eval e)) →
          ∃ node ∈ entry.plan.parts, node.pos = e.pos) ∧
        ∀ e, ((entry.plan.invoke args).run input).2.1 = some (.eval e) →
          ∃ node ∈ entry.plan.parts, node.pos = e.pos := by
  intro p entry hentry
  have hlined : p.Lined := Program.lined_ofParts fun part hpart => (hparts part hpart).lined
  have hwords := Program.word_of_mem_imports_ofParts hparts
  have h := compiled_of_ok hc
  rw [h.entries] at hentry
  obtain ⟨source, hsource, rfl⟩ := List.mem_map.mp hentry
  -- the tokens of the query are between braces, whoever wrote them
  obtain ⟨hderives, -⟩ := Syntax.derives_of_parse h.read
  obtain ⟨us, hbraced, hquery⟩ := hderives.exists_query hsource
  have hlowers := h.lowers source hsource
  refine ⟨source, hsource, hlowers, ?_, ?_⟩
  · intro node hnode
    obtain ⟨e, he, above, ts, bound, t, line, front, back, hinfix, hderives, hlowers, hleading,
      hshows⟩ := (hlowers.parts hquery node hnode).exists_shows hlined hwords hbraced
    have ht : t ∈ tokens p.text := hinfix.subset (List.mem_of_find?_eq_some hleading)
    exact ⟨e, he, above, ts, bound, t, line, front, back, hinfix, hderives, hlowers, hleading,
      hshows, Program.tabled_of_token hsize ht⟩
  · intro args input
    -- what holds of the position of each node holds of the position of each fault
    let plan := (Scope.resolveEntry p.context source).1.plan
    let AtNode : Position → Prop := fun pos => ∃ node ∈ plan.parts, node.pos = pos
    have hparts : ∀ part ∈ plan.parts, AtNode part.pos := fun part hpart => ⟨part, hpart, rfl⟩
    have hanswer := @Invocation.failsAt_answer AtNode (plan.invoke args) hparts
    have hrun := @Invocation.failsAt_run AtNode (plan.invoke args) hparts
    constructor
    · intro k e he
      exact hanswer k _ input Progress.failsAt_flowing e he
    · intro e he
      exact hrun input he

/-- A body closes its entry and adds another one. A fault in the second entry points behind two
parentheses, at a minus sign, and the letter of two bytes before it counts as two columns. -/
theorem errors_point_into_body_past_injection :
    let parts := [Part.library "tsv", .text "from l in lines\nselect (l) \x7d query(all) \x7b",
      .text "from x in all where x == \"ä\" || ((-x) > 0) select x"]
    let p := ofParts parts
    (encodeUtf8 p.text).length < UInt32.size ∧
    ∃ c entry e t line front back, compile p = .ok c ∧ c.artifact.entries[1]? = some entry ∧
      ((entry.plan.invoke []).run [.ok "ä", .ok "b"]).2.1 = some (.eval e) ∧ e.pos = ⟨3, 36⟩ ∧
      p.Shows e.pos t line front back := by
  intro parts p
  have hparts : ∀ part ∈ parts, part.Worded := by
    refine List.forall_mem_cons.mpr ⟨⟨'t', ['s', 'v'], rfl, by decide, by decide⟩, ?_⟩
    exact List.forall_mem_cons.mpr ⟨trivial, List.forall_mem_singleton.mpr trivial⟩
  have hsize : (encodeUtf8 p.text).length < UInt32.size := by decide +kernel
  have hpos : ((compile p).toOption.bind fun c => c.artifact.entries[1]?.bind fun entry =>
      ((entry.plan.invoke []).run [.ok "ä", .ok "b"]).2.1.bind RunError.pos?) = some ⟨3, 36⟩ := by
    decide +kernel
  obtain ⟨c, hc, hentry⟩ := Option.bind_eq_some_iff.mp hpos
  obtain ⟨entry, hentry, herror⟩ := Option.bind_eq_some_iff.mp hentry
  obtain ⟨error, herror, hat⟩ := Option.bind_eq_some_iff.mp herror
  obtain ⟨e, rfl, hplace⟩ := RunError.pos?_eq_some_iff.mp hat
  have hok := eq_ok_of_toOption hc
  obtain ⟨source, -, -, hnodes, hruns⟩ :=
    errors_point_into_body hparts hsize hok entry (List.mem_of_getElem? hentry)
  obtain ⟨-, hrun⟩ := hruns [] [.ok "ä", .ok "b"]
  obtain ⟨node, hnode, hsame⟩ := hrun e herror
  obtain ⟨_, _, _, _, _, t, line, front, back, -, -, -, -, hshows, -⟩ := hnodes node hnode
  rw [hsame] at hshows
  exact ⟨hsize, c, entry, e, t, line, front, back, hok, hentry, herror, hplace, hshows⟩

end LineQuery
