import LineQuery.Proofs.Grammar.UseLines
import LineQuery.Proofs.Scoping.FindingPlaces
import LineQuery.Proofs.Script.LineTables
import LineQuery.Proofs.Script.UserPositions
import LineQuery.Settings.Basic

/-! # The declarations of a program

Settings are checked for imports that could not be names of libraries, and what passes is left to
the compiler, which knows the libraries. In a program each import has a `use` line of its own. A
name that passes the check is a word, so the compiler finds it in that line, and if it is no
reserved word it is declared there: the compiler says nothing about the line but that there is no
such library. A reserved word passes the check as well, but is no name to the compiler.
-/

namespace LineQuery

open LineQuery.Syntax
open LineQuery.Text (byteLength byteLength_append encodeUtf8 lineChars)

/-! ## Names of libraries -/

/-- A name that settings may import is a word of programs. -/
theorem Settings.word_of_isLibraryName {name : String} (h : Settings.isLibraryName name = true) :
    Word name.toList := by
  unfold Settings.isLibraryName at h
  split at h
  · exact nomatch h
  · rename_i c cs heq
    obtain ⟨hstart, hrest⟩ := Bool.and_eq_true_iff.mp h
    exact ⟨c, cs, heq, hstart, hrest⟩

/-! ## The lines of imports -/

namespace Program

def useText (library : String) : String :=
  "use " ++ library ++ ";"

theorem flatMap_useLine (libraries : List String) :
    (libraries.flatMap fun library => (useLine library).toList) =
      lineChars (libraries.map useText) := by
  simp [lineChars, List.flatMap_map, useText, useLine]

theorem not_mem_useText {library : String} (h : Word library.toList) :
    '\n' ∉ (useText library).toList := by
  have hname : '\n' ∉ library.toList := h.not_mem (by decide)
  simp [useText, hname]

/-- The imports stand in front of all else in the text, each on a line of its own. -/
theorem exists_text_of_imports {p : Program} {before after : List String} {name : String}
    (h : p.imports = before ++ name :: after) : ∃ rest, p.text.toList =
      (before.flatMap fun library => (useLine library).toList) ++
        ((useLine name).toList ++ rest) := by
  refine ⟨(after.flatMap fun library => (useLine library).toList) ++
    (headLine ++ String.join (p.body.map (· ++ "\n")) ++ closingLine).toList, ?_⟩
  simp only [text, h, String.toList_append, String.toList_join, List.flatMap_map,
    List.flatMap_append, List.flatMap_cons, List.append_assoc]

end Program

open Program (useLine useText)

/-- What stands at the tokens `ts`, or at the end of the text, is not in line `line`. -/
def OffLine (text : String) (ts : List Token) (line : Nat) : Prop :=
  ∀ n, Place ts text.utf8ByteSize n → ((LineIndex.ofText text).position n).line ≠ line

section Places

variable {text name : String} {before : List String} {rest : List Char}
  (htext : text.toList = (before.flatMap fun library => (useLine library).toList) ++
    ((useLine name).toList ++ rest))
  (hbefore : ∀ library ∈ before, Word library.toList) (hname : Word name.toList)

include htext hbefore hname

/-- Where the name stands in its `use` line, and the character behind it. -/
theorem position_of_name {j : Nat} (hj : j ≤ byteLength name.toList) :
    (LineIndex.ofText text).position
      (byteLength (before.flatMap fun library => (useLine library).toList) + 4 + j) =
      ⟨before.length + 1, 5 + j⟩ := by
  have hsplit : text.toList = lineChars (before.map useText) ++
      ((useText name).toList ++ '\n' :: rest) := by
    rw [htext, Program.flatMap_useLine]
    simp [useLine, useText]
  have hlength : byteLength (useText name).toList = 5 + byteLength name.toList := by
    have hfront : byteLength "use ".toList = 4 := by decide
    have hback : byteLength ";".toList = 1 := by decide
    rw [useText, String.toList_append, String.toList_append, byteLength_append, byteLength_append,
      hfront, hback]
    omega
  have hlines : ∀ line ∈ before.map useText, '\n' ∉ line.toList := by
    refine List.forall_mem_map.mpr fun library hlibrary => ?_
    exact Program.not_mem_useText (hbefore library hlibrary)
  rw [Program.flatMap_useLine, LineIndex.position_of_line hsplit hlines
    (Program.not_mem_useText hname) (.inr ⟨_, rfl⟩) (by omega) (by omega), List.length_map]
  congr 1
  omega

omit hbefore hname in
/-- The name starts in the text. -/
theorem start_of_name_le :
    byteLength (before.flatMap fun library => (useLine library).toList) + 4 ≤
      (encodeUtf8 text).length := by
  have hsize : byteLength "use ".toList = 4 := by decide
  rw [Text.length_encodeUtf8, htext, byteLength_append, useLine, String.toList_append,
    String.toList_append, byteLength_append, byteLength_append, byteLength_append, hsize]
  omega

/-- The tokens before and behind the `use` line of `name` are in other lines. -/
theorem offLine_of_useLine : OffLine text (useLineTokens 0 before ++
    scanFrom 0 (byteLength (before.flatMap fun library => (useLine library).toList) +
      byteLength (useLine name).toList) rest) (before.length + 1) := by
  intro n hplace
  have hlines : ∀ line ∈ (before ++ [name]).map useText, '\n' ∉ line.toList := by
    refine List.forall_mem_map.mpr fun library hlibrary => Program.not_mem_useText ?_
    rcases List.mem_append.mp hlibrary with hlibrary | hlibrary
    · exact hbefore library hlibrary
    · exact List.mem_singleton.mp hlibrary ▸ hname
  -- the text is cut in front of the line and behind it; offsets on either side are elsewhere
  have hfront : text.toList =
      lineChars (before.map useText) ++ ((useLine name).toList ++ rest) := by
    rw [htext, Program.flatMap_useLine]
  have hboth : text.toList = lineChars ((before ++ [name]).map useText) ++ rest := by
    rw [htext, ← Program.flatMap_useLine, List.flatMap_append, List.append_assoc,
      List.flatMap_singleton]
  have hbehind : byteLength (before.flatMap fun library => (useLine library).toList) +
      byteLength (useLine name).toList =
        byteLength (lineChars ((before ++ [name]).map useText)) := by
    rw [← Program.flatMap_useLine, List.flatMap_append, List.flatMap_singleton, byteLength_append]
  rw [hbehind] at hplace
  have hlater : byteLength (lineChars ((before ++ [name]).map useText)) ≤ n →
      ((LineIndex.ofText text).position n).line ≠ before.length + 1 := by
    intro hle
    have hline := LineIndex.lt_line_of_le hboth hlines hle
    rw [List.length_map, List.length_append, List.length_singleton] at hline
    omega
  -- a token is in front of the line or behind it, and the end of the text is behind it
  rcases hplace with ⟨t, ht, rfl⟩ | rfl
  · rcases List.mem_append.mp ht with ht | ht
    · have hlt := start_lt_of_mem_useLineTokens ht
      rw [Nat.zero_add, Program.flatMap_useLine] at hlt
      have hline := LineIndex.line_le_of_lt hfront
        (fun line hline => hlines line (by simp at hline ⊢; exact .inl hline)) hlt
      rw [List.length_map] at hline
      omega
    · obtain ⟨_, _, _, -, hstands⟩ := exists_stands ht
      exact hlater (hstands.start ▸ Nat.le_add_right _ _)
  · refine hlater ?_
    rw [Text.utf8ByteSize_eq, Text.length_encodeUtf8, hboth, byteLength_append]
    exact Nat.le_add_right _ _

end Places

/-! ## What is reported on one line -/

section Reports

variable {p : Program} {front back : List Token} {id : Ident} {earlier : List Ident}
  {later : Document} {line : Nat}

/-- What is found on other lines is not reported on this one. -/
theorem filter_place_eq_nil {index : LineIndex} {findings : List Finding}
    (h : ∀ f ∈ findings, (index.position f.span.start).line ≠ line) :
    (findings.map (Finding.place index)).filter (·.position.line = line) = [] := by
  rw [List.filter_eq_nil_iff]
  refine List.forall_mem_map.mpr fun f hf => ?_
  rw [decide_eq_true_eq]
  exact h f hf

/-- When names are resolved, nothing is reported on the line of a declaration but that there is no
such library. -/
theorem filter_resolvingReports (h : Declares p.text front back id earlier later)
    (hback : DerivesDocument back later) (horder : InOrder back)
    (hline : ((LineIndex.ofText p.text).position id.span.start).line = line)
    (helse : OffLine p.text (front ++ back) line) :
    p.resolvingReports.filter (·.position.line = line) =
      ((unknownLibrary? id).map (Finding.place (LineIndex.ofText p.text))).toList := by
  have hothers : ∀ {libraries : List Ident}, libraries ⊆ earlier ++ later.uses →
      ∀ f ∈ libraries.filterMap unknownLibrary?,
        ((LineIndex.ofText p.text).position f.span.start).line ≠ line := by
    intro libraries hsub f hf
    obtain ⟨other, hother, hunknown⟩ := List.mem_filterMap.mp hf
    rw [span_of_unknownLibrary? hunknown]
    exact helse _ (h.others other (hsub hother))
  -- In front of the declaration there are `use` lines only, so each entry stands behind it.
  have hentries : ∀ ctx, ∀ f ∈ (later.entries.map (Scope.resolveEntry ctx)).flatMap (·.2),
      ((LineIndex.ofText p.text).position f.span.start).line ≠ line := by
    intro ctx f hf
    obtain ⟨_, hmem, hf⟩ := List.mem_flatMap.mp hf
    obtain ⟨e, he, rfl⟩ := List.mem_map.mp hmem
    have hstarts := startsAt_of_found hback horder (.inr ⟨ctx, e, he, hf⟩)
    exact helse _ (.inl (hstarts.mono (List.subset_append_right _ _)))
  have hown : (([id].filterMap unknownLibrary?).map
      (Finding.place (LineIndex.ofText p.text))).filter (·.position.line = line) =
        ((unknownLibrary? id).map (Finding.place (LineIndex.ofText p.text))).toList := by
    cases hunknown : unknownLibrary? id with
    | none => simp [hunknown]
    | some f =>
      have hspan : ((LineIndex.ofText p.text).position f.span.start).line = line := by
        rw [span_of_unknownLibrary? hunknown, hline]
      simp [hunknown, Finding.place, hspan]
  rw [Program.resolvingReports, h.read, resolve, Document.addUses]
  simp only [List.filterMap_append, List.map_append, List.filter_append]
  rw [filter_place_eq_nil (hothers (List.subset_append_left _ _)), hown,
    filter_place_eq_nil (hothers (List.subset_append_right _ _)),
    filter_place_eq_nil (hentries _), List.append_nil, List.append_nil, List.nil_append]

/-- On the line of a declaration nothing is reported but that there is no such library, and that
only if the parser found nothing. -/
theorem filter_reports (h : Declares p.text front back id earlier later) (horder : InOrder back)
    (hline : ((LineIndex.ofText p.text).position id.span.start).line = line)
    (helse : OffLine p.text (front ++ back) line) :
    p.reports.filter (·.position.line = line) = if (parse p.text).2 = [] then
      ((unknownLibrary? id).map (Finding.place (LineIndex.ofText p.text))).toList else [] := by
  rw [p.reports_eq]
  split
  · rename_i hnil
    exact filter_resolvingReports h (h.derives hnil) horder hline helse
  · exact filter_place_eq_nil fun f hf => helse _ (h.findings f hf)

end Reports

/-- Sorting keeps the only diagnostic of a kind. -/
theorem filter_sort_of_eq_toList {ds : List Diagnostic} {q : Diagnostic → Bool}
    {d? : Option Diagnostic} (h : ds.filter q = d?.toList) :
    (Diagnostic.sort ds).filter q = d?.toList := by
  have hperm := (Diagnostic.ordered_sort ds).perm.filter q
  rw [h] at hperm
  cases d? with
  | none => exact List.perm_nil.mp hperm
  | some d => exact List.perm_singleton.mp hperm

/-! ## Imports that settings may name -/

/-- How it is reported that there is no such library, for a name in one line. -/
theorem place_unknownLibrary {index : LineIndex} {name : String} {span : Span} {line column : Nat}
    (hname : Word name.toList) (hunknown : name ∉ ["core", "text", "tsv"])
    (hstart : index.position span.start = ⟨line, column⟩)
    (hstop : index.position span.stop = ⟨line, column + byteLength name.toList⟩) :
    (unknownLibrary? ⟨name, span⟩).map (Finding.place index) =
      some { severity := .error, code := .unknownLibrary,
             message := "unknown library `" ++ name ++ "`", position := ⟨line, column⟩,
             width := byteLength name.toList,
             help := ["available libraries: core, text, tsv"] } := by
  have hnone : Library.ofName? name = none := by
    cases hlibrary : Library.ofName? name with
    | none => rfl
    | some l =>
      have hname : l.name = name := Library.ofName?_eq_some_iff.mp hlibrary
      exact absurd (exists_library_iff.mp ⟨l, hname⟩) hunknown
  have hwidth : Finding.width index span = byteLength name.toList := by
    obtain ⟨c, cs, hcs, -, -⟩ := hname
    have hsize := c.utf8Size_pos
    rw [Finding.width, hstart, hstop, if_pos rfl, Nat.add_sub_cancel_left, hcs, byteLength]
    omega
  rw [unknownLibrary?, hnone, Option.map_some, Finding.place, hstart, hwidth]
  rfl

/-- Where the compiler places the declaration of an import. -/
theorem exists_declares_of_imports {p : Program} {before after : List String} {name : String}
    (himports : p.imports = before ++ name :: after)
    (hbefore : ∀ library ∈ before, Word library.toList) (hname : Word name.toList)
    (hfree : Keyword.ofText? name = none) :
    ∃ front back span earlier later, Declares p.text front back ⟨name, span⟩ earlier later ∧
      InOrder back ∧ span.start ≤ (encodeUtf8 p.text).length ∧
      (LineIndex.ofText p.text).position span.start = ⟨before.length + 1, 5⟩ ∧
      (LineIndex.ofText p.text).position span.stop =
        ⟨before.length + 1, 5 + byteLength name.toList⟩ ∧
      OffLine p.text (front ++ back) (before.length + 1) := by
  obtain ⟨rest, htext⟩ := Program.exists_text_of_imports himports
  have hkind : wordKind name.toList = .ident := by
    rw [wordKind, String.ofList_toList, hfree]
  obtain ⟨earlier, later, hdeclares⟩ := exists_declares htext hbefore hname hkind
  exact ⟨_, _, _, earlier, later, hdeclares, inOrder_scanFrom _ _ _, start_of_name_le htext,
    position_of_name htext hbefore hname (Nat.zero_le _),
    position_of_name htext hbefore hname (Nat.le_refl _),
    offLine_of_useLine htext hbefore hname⟩

/-- A name that settings may import, and that is no reserved word, is declared by each program that
imports it, whatever else is in the program, if words of 32 bits can count the bytes of the text.
Just one library is declared on the line of the import, by its name, in column 5. On that line it is
reported that there is no such library, in the columns of the name, if the text is read without a
finding and there is none; otherwise nothing is reported there. Names are resolved with the library
if it exists, and a compiled program imports it. -/
theorem imported_name_is_declared {p : Program} {before after : List String} {name : String}
    (hsize : (encodeUtf8 p.text).length < UInt32.size)
    (himports : p.imports = before ++ name :: after)
    (hbefore : ∀ library ∈ before, Settings.isLibraryName library = true)
    (hname : Settings.isLibraryName name = true) (hfree : Keyword.ofText? name = none) :
    let index := LineIndex.ofText p.text
    let place : Position := ⟨before.length + 1, 5⟩
    (∃ span, index.position span.start = place ∧ p.Tabled span.start ∧
      (parse p.text).1.uses.filter (fun id => (index.position id.span.start).line = place.line) =
        [⟨name, span⟩]) ∧
    p.diagnostics.filter (·.position.line = place.line) =
      (if name ∈ ["core", "text", "tsv"] ∨ (parse p.text).2 ≠ [] then [] else
        [{ severity := .error, code := .unknownLibrary,
           message := "unknown library `" ++ name ++ "`", position := place,
           width := byteLength name.toList,
           help := ["available libraries: core, text, tsv"] }]) ∧
    (∀ l : Library, l.name = name → l ∈ p.context.imports) ∧
    ∀ c, compile p = .ok c → name ∈ c.artifact.imports := by
  intro index place
  have hwords : ∀ library ∈ before, Word library.toList := fun library hlibrary =>
    Settings.word_of_isLibraryName (hbefore library hlibrary)
  have hword : Word name.toList := Settings.word_of_isLibraryName hname
  obtain ⟨front, back, span, earlier, later, hdeclares, horder, hwithin, hstart, hstop, helse⟩ :=
    exists_declares_of_imports himports hwords hword hfree
  -- the document declares what stands in front of the line, the name, and what is behind it
  have huses : (parse p.text).1.uses = earlier ++ [⟨name, span⟩] ++ later.uses := by
    rw [hdeclares.read, Document.addUses]
  have himported : ∀ l : Library, l.name = name → l ∈ p.context.imports := by
    intro l hl
    exact mem_importedLibraries.mpr ⟨⟨name, span⟩, by simp [huses], hl.symm⟩
  refine ⟨⟨span, hstart, Program.tabled hsize hwithin, ?_⟩, ?_, himported, ?_⟩
  -- no other declaration starts in the line
  · have hothers : ∀ {libraries : List Ident}, libraries ⊆ earlier ++ later.uses →
        libraries.filter (fun id => (index.position id.span.start).line = place.line) = [] := by
      intro libraries hsub
      refine List.filter_eq_nil_iff.mpr fun other hother => ?_
      rw [decide_eq_true_eq]
      exact helse _ (hdeclares.others other (hsub hother))
    have hown : (index.position span.start).line = place.line := congrArg Position.line hstart
    rw [huses, List.filter_append, List.filter_append, hothers (List.subset_append_left _ _),
      hothers (List.subset_append_right _ _)]
    simp [hown]
  · have hreports := filter_reports hdeclares horder (congrArg Position.line hstart) helse
    rw [p.diagnostics_eq]
    -- an unknown library is only reported if the text is read without a finding
    by_cases hnil : (parse p.text).2 = []
    · rw [if_pos hnil] at hreports
      rw [filter_sort_of_eq_toList hreports]
      by_cases hknown : name ∈ ["core", "text", "tsv"]
      · rw [if_pos (.inl hknown), unknownLibrary?_eq_none_iff.mpr hknown]
        rfl
      · rw [if_neg (not_or.mpr ⟨hknown, not_not.mpr hnil⟩),
          place_unknownLibrary hword hknown hstart hstop]
        rfl
    · rw [if_neg hnil, ← Option.toList_none] at hreports
      rw [filter_sort_of_eq_toList hreports, if_pos (.inr hnil)]
      rfl
  · intro c hc
    have hknown := (compiled_of_ok hc).admissible.libraries ⟨name, span⟩ (by simp [huses])
    obtain ⟨l, hl⟩ := exists_library_iff.mpr hknown
    obtain ⟨-, rfl⟩ := compile_eq_ok_iff.mp hc
    exact List.mem_map.mpr ⟨l, himported l hl, hl⟩

/-- A name that no library has is reported in the second line, behind the import of `core`. -/
theorem imported_name_is_declared_of_unknown :
    let p := (Program.empty.addImport "logs").addText "from l in lines select l"
    (encodeUtf8 p.text).length < UInt32.size ∧ p.imports = ["core"] ++ "logs" :: ["text"] ∧
      (∀ library ∈ ["core"], Settings.isLibraryName library = true) ∧
      Settings.isLibraryName "logs" = true ∧ Keyword.ofText? "logs" = none ∧
      (parse p.text).2 = [] ∧
      p.diagnostics.filter (·.position.line = 2) =
        [{ severity := .error, code := .unknownLibrary, message := "unknown library `logs`",
           position := ⟨2, 5⟩, width := 4, help := ["available libraries: core, text, tsv"] }] := by
  intro p
  have hsize : (encodeUtf8 p.text).length < UInt32.size := by decide +kernel
  have himports : p.imports = ["core"] ++ "logs" :: ["text"] := by decide +kernel
  have hbefore : ∀ library ∈ ["core"], Settings.isLibraryName library = true := by decide
  have hname : Settings.isLibraryName "logs" = true := by decide
  have hfree : Keyword.ofText? "logs" = none := by decide
  have hread : (parse p.text).2 = [] := by decide +kernel
  have hreported := (imported_name_is_declared hsize himports hbefore hname hfree).2.1
  rw [if_neg (not_or.mpr ⟨by decide, not_not.mpr hread⟩)] at hreported
  exact ⟨hsize, himports, hbefore, hname, hfree, hread, hreported⟩

/-- A reserved word may be imported as well, but to the compiler it is no name. -/
theorem reserved_word_is_no_name {p : Program} {before after : List String} {name : String}
    {k : Keyword} (himports : p.imports = before ++ name :: after)
    (hbefore : ∀ library ∈ before, Settings.isLibraryName library = true)
    (hname : Settings.isLibraryName name = true) (hreserved : Keyword.ofText? name = some k) :
    ∃ d ∈ p.diagnostics, d.code = .grammar ∧
      d.message = "expected identifier, found `" ++ name ++ "`" ∧
      d.position = ⟨before.length + 1, 5⟩ := by
  obtain ⟨rest, htext⟩ := Program.exists_text_of_imports himports
  have hwords : ∀ library ∈ before, Word library.toList := fun library hlibrary =>
    Settings.word_of_isLibraryName (hbefore library hlibrary)
  have hword : Word name.toList := Settings.word_of_isLibraryName hname
  have hkind : wordKind name.toList = .keyword k := by
    rw [wordKind, String.ofList_toList, hreserved]
  obtain rfl : k.text = name := by simpa using List.find?_some hreserved
  have htokens : tokens p.text = _ :=
    (congrArg (scanFrom 0 0) htext).trans (scanFrom_useLines before 0 hwords)
  rw [scanFrom_useLine hword, Nat.zero_add] at htokens
  obtain ⟨c, _, hc, hpasses⟩ := passes_useLines before 0
    (c := .start (tokens p.text) p.text.utf8ByteSize) htokens
  have hfound := found_of_reservedLine hc hkind
  generalize hf : ({ code := _, message := _, span := _ } : Finding) = f at hfound
  have hread : f ∈ (parse p.text).2 := by
    refine List.mem_append_right _ (List.mem_reverse.mpr ?_)
    have hrest := congrArg (fun out : Document × Cursor => out.2.findings) hpasses.out
    exact hrest ▸ hfound
  refine ⟨f.place (LineIndex.ofText p.text), ?_, hf ▸ rfl, hf ▸ rfl, ?_⟩
  · rw [Program.mem_diagnostics, p.reports_eq, if_neg (List.ne_nil_of_mem hread)]
    exact List.mem_map_of_mem hread
  · rw [← hf]
    exact position_of_name htext hwords hword (Nat.zero_le _)

/-- Settings may import `select`. Compiling then says that it is no name, and does not say that
there is no such library. -/
theorem reserved_word_passes_check :
    let p := (Program.empty.addImport "select").addText "from l in lines select l"
    Settings.isLibraryName "select" = true ∧ p.imports = ["core"] ++ "select" :: ["text"] ∧
      (∃ d ∈ p.diagnostics, d.code = .grammar ∧ d.position = ⟨2, 5⟩) ∧
      ∀ d ∈ p.diagnostics, d.code ≠ .unknownLibrary := by
  intro p
  have hname : Settings.isLibraryName "select" = true := by decide
  have himports : p.imports = ["core"] ++ "select" :: ["text"] := by decide +kernel
  have hreserved : Keyword.ofText? "select" = some .selectWord := by decide
  obtain ⟨d, hd, hcode, -, hposition⟩ :=
    reserved_word_is_no_name himports (by decide) hname hreserved
  have hcodes : ∀ d ∈ p.reports, d.code ≠ .unknownLibrary := by decide +kernel
  exact ⟨hname, himports, ⟨d, hd, hcode, hposition⟩, fun d hd =>
    hcodes d (Program.mem_diagnostics.mp hd)⟩

end LineQuery
