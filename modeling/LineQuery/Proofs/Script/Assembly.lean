import LineQuery.Compile
import LineQuery.Proofs.Grammar.Frame
import LineQuery.Proofs.Script.ProgramText

/-! # What the text of a program decides

A compiled program is stored under its text alone, yet compiling looks at two things more: how many
lines the program counts before its body, and how many lines the body has. If no library has a line
end in its name, the text decides these as well, and so it decides what compiling gives.

A name with a line end in it is counted as one line and written as two. Then one text belongs to
programs that place their bodies differently, and they compile to different plans.
-/

namespace LineQuery

namespace Program

/-! ## Programs put together part by part -/

/-- What can be added to a program. -/
inductive Part where
  | library (name : String)
  | text (text : String)
deriving DecidableEq, Repr

def addPart (p : Program) : Part → Program
  | .library name => p.addImport name
  | .text text => p.addText text

def ofParts (parts : List Part) : Program :=
  parts.foldl addPart empty

/-- A part that is not the name of a library with a line end in it. -/
def Part.Lined : Part → Prop
  | library name => '\n' ∉ name.toList
  | text _ => True

instance : DecidablePred Part.Lined
  | .library _ => inferInstanceAs (Decidable (_ ∉ _))
  | .text _ => inferInstanceAs (Decidable True)

theorem lined_empty : Lined empty where
  imports := by decide
  body := nofun

/-- One more part leaves a program without line ends in its names and lines. -/
theorem Lined.addPart {p : Program} (hp : p.Lined) {part : Part} (hpart : part.Lined) :
    (p.addPart part).Lined := by
  cases part with
  | library name =>
    refine ⟨?_, hp.body⟩
    intro library hlibrary
    rcases mem_insertName hlibrary with hnew | hold
    · rw [hnew]
      exact hpart
    · exact hp.imports library hold
  | text text =>
    refine ⟨hp.imports, ?_⟩
    intro line hline
    rcases List.mem_append.mp hline with hold | hnew
    · exact hp.body line hold
    · exact not_mem_of_mem_bodyLines hnew

/-- Parts that are made of lines make up a program of lines. -/
theorem Lined.foldl_addPart {parts : List Part} (hparts : ∀ part ∈ parts, part.Lined)
    {p : Program} (hp : p.Lined) : (parts.foldl Program.addPart p).Lined := by
  induction parts generalizing p with
  | nil => exact hp
  | cons part parts ih =>
    obtain ⟨hpart, hrest⟩ := List.forall_mem_cons.mp hparts
    have hnext : (p.addPart part).Lined := hp.addPart hpart
    exact ih hrest hnext

/-- A program imports what its parts name, and what it imported before. -/
theorem mem_imports_foldl_addPart {library : String} : ∀ {parts : List Part} {p : Program},
    library ∈ (parts.foldl Program.addPart p).imports →
      .library library ∈ parts ∨ library ∈ p.imports
  | [], p, h => .inr h
  | part :: parts, p, h => by
    rcases @mem_imports_foldl_addPart library parts _ h with hlater | hnow
    · exact .inl (List.mem_cons_of_mem _ hlater)
    · cases part with
      | library name =>
        rcases mem_insertName hnow with rfl | hold
        · exact .inl List.mem_cons_self
        · exact .inr hold
      | text text => exact .inr hnow

/-- A program imports the libraries among its parts and those that every program does. -/
theorem mem_imports_ofParts {parts : List Part} {library : String}
    (h : library ∈ (ofParts parts).imports) :
    .library library ∈ parts ∨ library ∈ defaultImports :=
  mem_imports_foldl_addPart h

theorem lined_ofParts {parts : List Part} (hparts : ∀ part ∈ parts, part.Lined) :
    (ofParts parts).Lined :=
  lined_empty.foldl_addPart hparts

end Program

/-! ## Programs with one text -/

open Program (Part ofParts)

/-- Programs that have the same text, and libraries without line ends in their names, compile to
the same plans and warnings, or to the same errors, and show the same lines of their texts as the
lines of the user. -/
theorem text_decides_compilation {parts parts' : List Part} (hparts : ∀ part ∈ parts, part.Lined)
    (hparts' : ∀ part ∈ parts', part.Lined)
    (htext : (ofParts parts).text = (ofParts parts').text) :
    compile (ofParts parts) = compile (ofParts parts') ∧
      (ofParts parts).userLines = (ofParts parts').userLines := by
  have hlined := Program.lined_ofParts hparts
  have hlined' := Program.lined_ofParts hparts'
  have hsame : ofParts parts = ofParts parts' := hlined.eq_of_text hlined' htext
  rw [hsame]
  exact ⟨rfl, rfl⟩

/-- Parts in another order, cut in another way and repeated, make the same text. -/
theorem text_decides_compilation_of_reordered :
    let parts := [Part.library "tsv", .text "from l in lines\nwhere l", .text "select l"]
    let parts' := [Part.text "from l in lines\r\n", .library "tsv", .text "where l\nselect l",
      .library "core"]
    (ofParts parts).text = (ofParts parts').text ∧
      compile (ofParts parts) = compile (ofParts parts') ∧
      (ofParts parts).userLines = (ofParts parts').userLines := by
  intro parts parts'
  have hparts : ∀ part ∈ parts, part.Lined := by decide
  have hparts' : ∀ part ∈ parts', part.Lined := by decide
  have htext : (ofParts parts).text = (ofParts parts').text := by decide +kernel
  exact ⟨htext, text_decides_compilation hparts hparts' htext⟩

/-- A name that goes on in a second line is written as two libraries are. The two programs are
stored under one fingerprint, but they place the expression behind `select` differently. -/
theorem text_leaves_compilation_open :
    let p := ofParts [.library " core;\nuse  tsv", .text "from l in lines select int(l)"]
    let q := ofParts [.library " core", .library " tsv", .text "from l in lines select int(l)"]
    p.text = q.text ∧ p.fingerprint = q.fingerprint ∧ compile p ≠ compile q ∧
      p.userLines ≠ q.userLines := by
  intro p q
  have htext : p.text = q.text := by decide +kernel
  refine ⟨htext, congrArg Digest.Fingerprint.ofText htext, ?_, by decide +kernel⟩
  intro hsame
  have hplaces := congrArg (fun outcome => outcome.toOption.map fun c =>
    c.artifact.entries.map fun entry => entry.plan.select.pos) hsame
  revert hplaces
  decide +kernel

end LineQuery
