import LineQuery.Proofs.Grammar.Derivation
import LineQuery.Proofs.Grammar.TokenShape
import LineQuery.Proofs.Scoping.Admissible
import LineQuery.Proofs.Text.Utf8

/-! # The frame of a program

What the front end makes of the lines around a body. Whatever the body is, the tokens of a
program start with those of its `use` lines and of the line that opens the entry point, so
each document that derives has the entry of the frame as its first.
-/

namespace LineQuery.Syntax

/-! ## Scanning known text -/

/-- Characters that were read with a token before are passed over. -/
theorem scanFrom_skip : ∀ (cs rest : List Char) (offset : Nat),
    scanFrom cs.length offset (cs ++ rest) = scanFrom 0 (offset + Text.byteLength cs) rest
  | [], _, _ => rfl
  | c :: cs, rest, offset => by
    rw [List.length_cons, List.cons_append, scanFrom, scanFrom_skip cs, Text.byteLength,
      Nat.add_assoc]

/-- A space is no token, and moves the tokens behind it. -/
theorem scanFrom_space {c : Char} (h : isSpace c = true) (rest : List Char) (offset : Nat) :
    scanFrom 0 offset (c :: rest) = scanFrom 0 (offset + c.utf8Size) rest := by
  rw [scanFrom]
  exact if_pos h

/-- A token stands where its lexeme starts, if that is known to be `cs`. -/
theorem scanFrom_token {c : Char} {cs rest : List Char} {kind : TokenKind}
    (hspace : isSpace c = false) (hcomment : c ≠ '#')
    (h : lexeme c (cs ++ rest) = ⟨kind, cs.length⟩) (offset : Nat) :
    scanFrom 0 offset (c :: (cs ++ rest)) =
      ⟨kind, String.ofList (c :: cs), ⟨offset, offset + Text.byteLength (c :: cs)⟩⟩ ::
        scanFrom 0 (offset + Text.byteLength (c :: cs)) rest := by
  rw [scanFrom]
  simp only [hspace, hcomment, h, Bool.false_eq_true, if_false, List.take_left', scanFrom_skip,
    Text.byteLength, Nat.add_assoc]

theorem not_space_of_wordStart {c : Char} (h : isWordStart c = true) :
    isSpace c = false ∧ c ≠ '#' := by
  constructor
  · rw [← Bool.not_eq_true]
    intro hspace
    simp only [isSpace, Bool.or_eq_true, beq_iff_eq] at hspace
    rcases hspace with (((rfl | rfl) | rfl) | rfl) | rfl <;> exact absurd h (by decide)
  · rintro rfl
    exact absurd h (by decide)

/-- A word ends where no character goes on with it. -/
theorem scanFrom_word {word rest : List Char} (hword : Word word)
    (hrest : rest.takeWhile isWordChar = []) (offset : Nat) :
    scanFrom 0 offset (word ++ rest) =
      ⟨wordKind word, String.ofList word, ⟨offset, offset + Text.byteLength word⟩⟩ ::
        scanFrom 0 (offset + Text.byteLength word) rest := by
  obtain ⟨c, cs, rfl, hstart, hchars⟩ := hword
  obtain ⟨hspace, hcomment⟩ := not_space_of_wordStart hstart
  refine scanFrom_token hspace hcomment ?_ offset
  have hrun : (cs ++ rest).takeWhile isWordChar = cs := by
    rw [List.takeWhile_append_of_pos (List.all_eq_true.mp hchars), hrest, List.append_nil]
  simp only [lexeme, hstart, hrun, if_true]

/-- A mark of one character, where the next one does not make it longer. -/
theorem scanFrom_mark {c : Char} {m : Mark} (hspace : isSpace c = false) (hcomment : c ≠ '#')
    {rest : List Char} (h : lexeme c rest = ⟨.mark m, 0⟩) (offset : Nat) :
    scanFrom 0 offset (c :: rest) =
      ⟨.mark m, String.ofList [c], ⟨offset, offset + Text.byteLength [c]⟩⟩ ::
        scanFrom 0 (offset + Text.byteLength [c]) rest :=
  @scanFrom_token c [] rest (.mark m) hspace hcomment h offset

/-! ## The tokens of the frame -/

/-- The tokens of the `use` line of `library` that starts at `offset`: the word `use`, the name of
the library and a semicolon. -/
def useTokens (offset : Nat) (library : String) : List Token :=
  let stop := offset + 4 + Text.byteLength library.toList
  [⟨.keyword .useWord, "use", ⟨offset, offset + 3⟩⟩,
    ⟨wordKind library.toList, library, ⟨offset + 4, stop⟩⟩,
    ⟨.mark .semicolon, ";", ⟨stop, stop + 1⟩⟩]

theorem byteLength_useLine (library : String) :
    Text.byteLength (Program.useLine library).toList =
      6 + Text.byteLength library.toList := by
  have hline : (Program.useLine library).toList =
      ['u', 's', 'e', ' '] ++ (library.toList ++ [';', '\n']) := by
    simp [Program.useLine]
  have hfront : Text.byteLength ['u', 's', 'e', ' '] = 4 := by decide
  have hback : Text.byteLength [';', '\n'] = 2 := by decide
  rw [hline, Text.byteLength_append, Text.byteLength_append, hfront, hback]
  omega

/-- The line of an import is three tokens, wherever it stands. -/
theorem scanFrom_useLine {library : String} (h : Word library.toList) (offset : Nat)
    (rest : List Char) :
    scanFrom 0 offset ((Program.useLine library).toList ++ rest) = useTokens offset library ++
      scanFrom 0 (offset + Text.byteLength (Program.useLine library).toList) rest := by
  have htext : (Program.useLine library).toList ++ rest =
      ['u', 's', 'e'] ++ ' ' :: (library.toList ++ ';' :: '\n' :: rest) := by
    simp [Program.useLine]
  have huse : Word ['u', 's', 'e'] := ⟨'u', ['s', 'e'], rfl, by decide, by decide⟩
  have hkind : wordKind ['u', 's', 'e'] = .keyword .useWord := by decide
  have hlength : offset + Text.byteLength (Program.useLine library).toList =
      offset + 4 + Text.byteLength library.toList + 1 + 1 := by
    rw [byteLength_useLine]
    omega
  rw [hlength, htext, scanFrom_word huse rfl, scanFrom_space rfl, scanFrom_word h rfl,
    @scanFrom_mark ';' .semicolon rfl (by decide) _ rfl, scanFrom_space rfl, hkind,
    String.ofList_toList]
  rfl

/-- The tokens of the line that opens the entry point: its name, which stands at the start of
the line, and two names in parentheses. -/
theorem scanFrom_headLine (offset : Nat) (rest : List Char) :
    ∃ leftParen lines comma args rightParen more,
      scanFrom 0 offset (Program.headLine.toList ++ rest) =
        ⟨.ident, Program.entryName, ⟨offset, offset + 5⟩⟩ :: leftParen :: lines :: comma ::
          args :: rightParen :: more ∧
      lines.kind = .ident ∧ comma.kind = .mark .comma ∧ rightParen.kind = .mark .rightParen ∧
      lines.text = "lines" ∧ args.text = "args" := by
  have htext : Program.headLine.toList ++ rest = ['q', 'u', 'e', 'r', 'y'] ++ '(' ::
      (['l', 'i', 'n', 'e', 's'] ++ ',' :: ' ' :: (['a', 'r', 'g', 's'] ++ ')' :: ' ' ::
        '\x7b' :: '\n' :: rest)) := rfl
  have hquery : Word ['q', 'u', 'e', 'r', 'y'] := ⟨_, _, rfl, by decide, by decide⟩
  have hlines : Word ['l', 'i', 'n', 'e', 's'] := ⟨_, _, rfl, by decide, by decide⟩
  have hargs : Word ['a', 'r', 'g', 's'] := ⟨_, _, rfl, by decide, by decide⟩
  have hquery' : wordKind ['q', 'u', 'e', 'r', 'y'] = .ident := by decide
  have hlines' : wordKind ['l', 'i', 'n', 'e', 's'] = .ident := by decide
  rw [htext, scanFrom_word hquery rfl, @scanFrom_mark '(' .leftParen rfl (by decide) _ rfl,
    scanFrom_word hlines rfl, @scanFrom_mark ',' .comma rfl (by decide) _ rfl,
    scanFrom_space rfl, scanFrom_word hargs rfl,
    @scanFrom_mark ')' .rightParen rfl (by decide) _ rfl, hquery']
  exact ⟨_, _, _, _, _, _, rfl, hlines', rfl, rfl, rfl, rfl⟩

/-! ## What derives from the frame -/

/-- Behind a `use` line the same entries follow. -/
theorem DerivesDocument.entries_of_use {word x semicolon : Token} {ts : List Token}
    {d : Document} (h : DerivesDocument (word :: x :: semicolon :: ts) d)
    (hword : word.kind = .keyword .useWord) :
    ∃ d', DerivesDocument ts d' ∧ d.entries = d'.entries := by
  generalize heq : word :: x :: semicolon :: ts = all at h
  cases h with
  | nil => exact nomatch heq
  | use _ _ _ h =>
    cases heq
    exact ⟨_, h, rfl⟩
  | entry he _ =>
    -- An entry starts with a name.
    obtain ⟨hx, _, _, _, _, _, _⟩ := he
    obtain ⟨rfl, -⟩ := List.cons.inj heq
    exact nomatch hword.symm.trans hx

/-- Two names with a comma between them, in front of a closing parenthesis. -/
theorem DerivesParams.eq_pair {x comma y rightParen t : Token} {ts us vs : List Token}
    {params : List Ident} (h : DerivesParams ts params)
    (heq : x :: comma :: y :: rightParen :: us = ts ++ t :: vs) (ht : t.kind = .mark .rightParen)
    (hx : x.kind = .ident) (hcomma : comma.kind = .mark .comma)
    (hright : rightParen.kind = .mark .rightParen) : params = [x.ident, y.ident] := by
  cases h with
  | none =>
    cases heq
    cases hx.symm.trans ht
  | some h =>
    cases h with
    | last _ =>
      cases heq
      cases hcomma.symm.trans ht
    | comma _ _ h =>
      cases h with
      | last _ =>
        cases heq
        rfl
      | comma _ ht' _ =>
        cases heq
        cases hright.symm.trans ht'

/-- The first entry of a document that starts with the line of the frame is named by it and
has its parameters. -/
theorem entry_of_headLine {offset : Nat} {rest : List Char} {d : Document}
    (h : DerivesDocument (scanFrom 0 offset (Program.headLine.toList ++ rest)) d) :
    ∃ e later, d.entries = e :: later ∧
      e.name = ⟨Program.entryName, ⟨offset, offset + 5⟩⟩ ∧ e.paramNames = ["lines", "args"] := by
  obtain ⟨leftParen, lines, comma, args, rightParen, more, heq, hlines, hcomma, hright, htext,
    htext'⟩ := scanFrom_headLine offset rest
  generalize scanFrom 0 offset (Program.headLine.toList ++ rest) = all at h heq
  cases h with
  | nil => exact nomatch heq
  | use hword _ _ _ =>
    cases heq
    exact nomatch hword
  | entry he _ =>
    obtain ⟨_, _, hparams, ht, _, _, _⟩ := he
    simp only [List.cons_append, List.append_assoc, List.cons.injEq] at heq
    obtain ⟨rfl, rfl, heq⟩ := heq
    have hpair := hparams.eq_pair heq.symm ht hlines hcomma hright
    refine ⟨_, _, rfl, rfl, ?_⟩
    rw [Entry.paramNames, hpair, ← htext, ← htext']
    rfl

/-- The `use` lines in front of a document change none of its entries. -/
theorem entries_of_useLines {rest : List Char} {d : Document} : ∀ (libraries : List String)
    (offset : Nat), (∀ library ∈ libraries, Word library.toList) →
    DerivesDocument (scanFrom 0 offset
      ((libraries.flatMap fun library => (Program.useLine library).toList) ++ rest)) d →
    ∃ d', DerivesDocument (scanFrom 0 (offset + Text.byteLength
      (libraries.flatMap fun library => (Program.useLine library).toList)) rest) d' ∧
      d.entries = d'.entries
  | [], _, _, h => ⟨d, h, rfl⟩
  | library :: libraries, offset, hwords, h => by
    obtain ⟨hlibrary, hlibraries⟩ := List.forall_mem_cons.mp hwords
    rw [List.flatMap_cons, List.append_assoc, scanFrom_useLine hlibrary] at h
    -- A keyword as the name of a library would leave no derivation to start from.
    obtain ⟨d₁, h₁, hentries⟩ := h.entries_of_use rfl
    obtain ⟨d₂, h₂, hentries'⟩ := entries_of_useLines libraries _ hlibraries h₁
    rw [Nat.add_assoc, ← Text.byteLength_append] at h₂
    exact ⟨d₂, h₂, hentries.trans hentries'⟩

end LineQuery.Syntax

namespace LineQuery.Program

open LineQuery.Syntax (Word Document DerivesDocument)

/-! ## Assembled programs -/

def assembled (imports texts : List String) : Program :=
  texts.foldl addText (imports.foldl addImport empty)

/-- The byte at which the line that opens the entry point starts. -/
def headOffset (p : Program) : Nat :=
  Text.byteLength (String.join (p.imports.map useLine)).toList

theorem mem_insertName {x name : String} : ∀ {names : List String},
    x ∈ insertName name names → x = name ∨ x ∈ names
  | [], h => Or.inl (List.mem_singleton.mp h)
  | other :: names, h => by
    unfold insertName at h
    split at h
    · exact List.mem_cons.mp h
    · split at h
      · exact Or.inr h
      · rcases List.mem_cons.mp h with rfl | h
        · exact Or.inr (List.mem_cons_self ..)
        · exact (mem_insertName h).imp_right (List.mem_cons_of_mem _)

/-- A program imports nothing that it was not given. -/
theorem mem_imports_addImport {x : String} : ∀ {imports : List String} {p : Program},
    x ∈ (imports.foldl addImport p).imports → x ∈ imports ∨ x ∈ p.imports
  | [], p, h => Or.inr h
  | name :: imports, p, h => by
    rcases mem_imports_addImport (p := p.addImport name) h with h | h
    · exact Or.inl (List.mem_cons_of_mem _ h)
    · rcases mem_insertName h with rfl | h
      · exact Or.inl (List.mem_cons_self ..)
      · exact Or.inr h

/-- Text adds no imports. -/
theorem imports_addText : ∀ (texts : List String) (p : Program),
    (texts.foldl addText p).imports = p.imports
  | [], _ => rfl
  | text :: texts, p => imports_addText texts (p.addText text)

theorem word_of_mem_defaultImports {library : String} (h : library ∈ defaultImports) :
    Word library.toList := by
  simp only [defaultImports, List.mem_cons, List.not_mem_nil, or_false] at h
  rcases h with rfl | rfl
  · exact ⟨'c', ['o', 'r', 'e'], rfl, by decide, by decide⟩
  · exact ⟨'t', ['e', 'x', 't'], rfl, by decide, by decide⟩

/-- If words are imported, all imports of a program are words. -/
theorem word_of_mem_imports {imports texts : List String}
    (h : ∀ name ∈ imports, Word name.toList) :
    ∀ library ∈ (assembled imports texts).imports, Word library.toList := by
  intro library hmem
  rw [assembled, imports_addText] at hmem
  rcases mem_imports_addImport hmem with hmem | hmem
  · exact h library hmem
  · exact word_of_mem_defaultImports hmem

/-- An entry that frames the body of a program: its name stands where the frame has it, and its
parameters are those of the frame. -/
structure Frames (p : Program) (e : Syntax.Entry) : Prop where
  name : e.name = ⟨entryName, ⟨p.headOffset, p.headOffset + 5⟩⟩
  params : e.paramNames = ["lines", "args"]

/-- The first entry of what derives from a program is the one that frames its body. -/
theorem frames_first_entry {p : Program} (hwords : ∀ library ∈ p.imports, Word library.toList)
    {d : Document} (h : DerivesDocument (Syntax.tokens p.text) d) :
    ∃ e later, d.entries = e :: later ∧ p.Frames e := by
  have huses : (String.join (p.imports.map useLine)).toList =
      p.imports.flatMap fun library => (useLine library).toList := by
    rw [String.toList_join, List.flatMap_map]
  have htext : p.text.toList = (p.imports.flatMap fun library => (useLine library).toList) ++
      (headLine.toList ++ (String.join (p.body.map (· ++ "\n")) ++ closingLine).toList) := by
    simp only [text, String.toList_append, huses, List.append_assoc]
  rw [Syntax.tokens, htext] at h
  obtain ⟨d', h', hentries⟩ := Syntax.entries_of_useLines p.imports 0 hwords h
  rw [← huses, Nat.zero_add] at h'
  obtain ⟨e, later, heq, hname, hparams⟩ := Syntax.entry_of_headLine h'
  exact ⟨e, later, hentries.trans heq, ⟨hname, hparams⟩⟩

end LineQuery.Program
