import LineQuery.Script.Program

/-! # What the text of a program tells

A program whose names and lines have no line ends can be told from its text: a text falls into
lines in one way only, and the line that opens the entry point stands behind the last import.
-/

namespace LineQuery

namespace Text

/-- What stands before the first `a` of a list, and what stands behind it. -/
theorem eq_of_append_cons {α : Type} {a : α} {xs ys xs' ys' : List α} (h : a ∉ xs)
    (h' : a ∉ xs') (heq : xs ++ a :: ys = xs' ++ a :: ys') : xs = xs' ∧ ys = ys' := by
  rcases List.append_eq_append_iff.mp heq with ⟨more, rfl, hrest⟩ | ⟨more, rfl, hrest⟩
  all_goals
    cases more with
    | nil => simpa [eq_comm] using hrest
    | cons b more =>
      obtain ⟨rfl, -⟩ := List.cons.inj hrest
      simp at h h'

/-- Lists of lines are told apart by the texts that have a line end behind each of their lines. -/
theorem eq_of_join_lines {ls ls' : List String} (h : ∀ l ∈ ls, '\n' ∉ l.toList)
    (h' : ∀ l ∈ ls', '\n' ∉ l.toList)
    (heq : String.join (ls.map (· ++ "\n")) = String.join (ls'.map (· ++ "\n"))) : ls = ls' := by
  induction ls generalizing ls' with
  | nil =>
    cases ls' with
    | nil => rfl
    | cons l' ls' =>
      have hchars := congrArg String.toList heq
      simp at hchars
  | cons l ls ih =>
    cases ls' with
    | nil =>
      have hchars := congrArg String.toList heq
      simp at hchars
    | cons l' ls' =>
      obtain ⟨hl, hls⟩ := List.forall_mem_cons.mp h
      obtain ⟨hl', hls'⟩ := List.forall_mem_cons.mp h'
      have hchars := congrArg String.toList heq
      simp only [List.map_cons, String.join_cons, String.toList_append, List.append_assoc] at hchars
      -- the first line end is the end of the first line on both sides
      obtain ⟨hfirst, hrest⟩ := eq_of_append_cons hl hl' hchars
      rw [String.toList_inj.mp hfirst, ih hls hls' (String.toList_inj.mp hrest)]

theorem mem_of_mem_dropReturn {α : Type} [DecidableEq α] {cr c : α} {line : List α}
    (h : c ∈ dropReturn cr line) : c ∈ line := by
  cases line with
  | nil => exact h
  | cons c' line =>
    rw [dropReturn] at h
    split at h
    · exact List.mem_cons_of_mem _ h
    · exact h

/-- No line that a line end was found behind has one in it, and neither has the last. -/
theorem not_mem_of_mem_splitLinesFrom {α : Type} [DecidableEq α] {nl cr : α} {xs line l : List α}
    (hline : nl ∉ line) (hl : l ∈ splitLinesFrom nl cr line xs) : nl ∉ l := by
  induction xs generalizing line with
  | nil =>
    unfold splitLinesFrom at hl
    split at hl
    · exact nomatch hl
    · rw [List.mem_singleton.mp hl, List.mem_reverse]
      exact hline
  | cons x xs ih =>
    unfold splitLinesFrom at hl
    split at hl
    · rcases List.mem_cons.mp hl with rfl | hrest
      · rw [List.mem_reverse]
        exact fun hmem => hline (mem_of_mem_dropReturn hmem)
      · exact ih List.not_mem_nil hrest
    · rename_i hx
      refine ih ?_ hl
      rw [List.mem_cons, not_or]
      exact ⟨Ne.symm hx, hline⟩

theorem not_mem_of_mem_lines {s l : String} (h : l ∈ lines s) : '\n' ∉ l.toList := by
  obtain ⟨cs, hcs, rfl⟩ := List.mem_map.mp h
  rw [String.toList_ofList]
  exact not_mem_of_mem_splitLinesFrom List.not_mem_nil hcs

end Text

namespace Program

/-- Neither the names of the libraries nor the lines of the body have line ends in them. -/
structure Lined (p : Program) : Prop where
  imports : ∀ library ∈ p.imports, '\n' ∉ library.toList
  body : ∀ line ∈ p.body, '\n' ∉ line.toList

variable {p q : Program}

def textLines (p : Program) : List String :=
  p.imports.map (fun library => "use " ++ library ++ ";") ++
    (entryName ++ "(lines, args) \x7b") :: (p.body ++ ["\x7d"])

/-- The text of a program is its lines, each with a line feed. -/
theorem text_eq_join (p : Program) :
    p.text = String.join (p.textLines.map (· ++ "\n")) := by
  have huse : useLine = fun library => "use " ++ library ++ ";" ++ "\n" := by
    funext library
    rw [← String.toList_inj]
    simp [useLine]
  rw [← String.toList_inj]
  simp [text, textLines, huse, headLine, closingLine, entryName, Function.comp_def]

/-- The line that opens the entry point imports no library. -/
theorem useLine_ne_headLine (library : String) :
    "use " ++ library ++ ";" ≠ entryName ++ "(lines, args) \x7b" := by
  intro h
  have hfirst := congrArg (fun s : String => s.toList.head?) h
  simp [entryName] at hfirst

theorem Lined.textLines (h : p.Lined) : ∀ l ∈ p.textLines, '\n' ∉ l.toList := by
  intro l hl
  unfold Program.textLines at hl
  rcases List.mem_append.mp hl with himport | hrest
  · obtain ⟨library, hlibrary, rfl⟩ := List.mem_map.mp himport
    simpa using h.imports library hlibrary
  · rcases List.mem_cons.mp hrest with rfl | hrest
    · decide
    · rcases List.mem_append.mp hrest with hbody | hlast
      · exact h.body l hbody
      · rw [List.mem_singleton.mp hlast]
        decide

/-- The line that opens the query tells the imports from the body: no import reads like it. -/
theorem eq_of_imports_append {names names' rest rest' : List String}
    (h : names.map (fun library => "use " ++ library ++ ";") ++
        (entryName ++ "(lines, args) \x7b") :: rest =
      names'.map (fun library => "use " ++ library ++ ";") ++
        (entryName ++ "(lines, args) \x7b") :: rest') : names = names' ∧ rest = rest' := by
  induction names generalizing names' with
  | nil =>
    cases names' with
    | nil => exact ⟨rfl, (List.cons.inj h).2⟩
    | cons name' names' => exact absurd (List.cons.inj h).1.symm (useLine_ne_headLine name')
  | cons name names ih =>
    cases names' with
    | nil => exact absurd (List.cons.inj h).1 (useLine_ne_headLine name)
    | cons name' names' =>
      obtain ⟨hname, hnames⟩ := List.cons.inj h
      obtain ⟨hrest, rfl⟩ := ih hnames
      have hname : name = name' := by
        simpa [← String.toList_inj] using hname
      exact ⟨by rw [hname, hrest], rfl⟩

/-- A program can be told from its text. -/
theorem Lined.eq_of_text (hp : p.Lined) (hq : q.Lined) (h : p.text = q.text) : p = q := by
  rw [text_eq_join, text_eq_join] at h
  have hlines := Text.eq_of_join_lines hp.textLines hq.textLines h
  obtain ⟨himports, hrest⟩ := eq_of_imports_append hlines
  have hbody := List.append_cancel_right hrest
  cases p
  cases q
  simp_all

/-! ## Lines of a program that is put together -/

/-- Imports add nothing to the body. -/
theorem body_foldl_addImport (names : List String) (p : Program) :
    (names.foldl addImport p).body = p.body := by
  induction names generalizing p with
  | nil => rfl
  | cons name names ih => exact ih _

theorem not_mem_of_mem_bodyLines {text line : String} (h : line ∈ bodyLines text) :
    '\n' ∉ line.toList := by
  unfold bodyLines at h
  split at h
  · obtain rfl := List.mem_singleton.mp h
    decide
  · exact Text.not_mem_of_mem_lines h

/-- The lines that are added to a body have no line ends in them. -/
theorem not_mem_body_foldl_addText (texts : List String) (p : Program)
    (h : ∀ line ∈ p.body, '\n' ∉ line.toList) :
    ∀ line ∈ (texts.foldl addText p).body, '\n' ∉ line.toList := by
  induction texts generalizing p with
  | nil => exact h
  | cons text texts ih =>
    exact ih _ (List.forall_mem_append.mpr ⟨h, fun _ => not_mem_of_mem_bodyLines⟩)

end Program

end LineQuery
