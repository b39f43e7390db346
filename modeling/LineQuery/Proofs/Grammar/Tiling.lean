import LineQuery.Proofs.Grammar.ExprDerived
import LineQuery.Proofs.Grammar.Frame
import LineQuery.Proofs.Grammar.Placement
import LineQuery.Proofs.Script.UserPositions
import Mathlib.Logic.Function.Iterate

/-! # Tokens tile the text, line by line

The tokens of a text stand in it one behind another, and between them are only blanks and
comments. No token or comment goes past the end of its line, and what a token is does not depend
on what is behind its line. So the tokens of a text are those of its lines, each read alone and
moved to where the line stands.
-/

namespace LineQuery.Syntax

open LineQuery.Text (byteLength byteLength_append lineChars lineChars_cons)

/-! ## Tiles -/

/-- Space, tab, line feed, form feed and carriage return. -/
def blanks : List Char :=
  [' ', '\t', '\n', '\x0c', '\r']

theorem isSpace_iff {c : Char} : isSpace c = true ↔ c ∈ blanks := by
  simp [isSpace, blanks, or_assoc]

/-- Tokens that stand in a text, which is at byte `offset`, with only blanks and comments between
them. A comment goes to the end of its line. -/
inductive Tiles : Nat → List Char → List Token → Prop where
  | nil {offset : Nat} : Tiles offset [] []
  | blank {offset : Nat} {c : Char} {cs : List Char} {ts : List Token} : c ∈ blanks →
      Tiles (offset + c.utf8Size) cs ts → Tiles offset (c :: cs) ts
  | comment {offset : Nat} {body cs : List Char} {ts : List Token} : '\n' ∉ body →
      (∀ c, cs.head? = some c → c = '\n') → Tiles (offset + byteLength ('#' :: body)) cs ts →
      Tiles offset ('#' :: body ++ cs) ts
  | token {offset : Nat} {c : Char} {more cs : List Char} {t : Token} {ts : List Token} :
      c ∉ blanks → c ≠ '#' → '\n' ∉ c :: more → t.text = String.ofList (c :: more) →
      t.span = ⟨offset, offset + byteLength (c :: more)⟩ → Tiles t.span.stop cs ts →
      Tiles offset (c :: more ++ cs) (t :: ts)

/-- No token starts in front of the text that is tiled. -/
theorem Tiles.le_start {offset : Nat} {cs : List Char} {ts : List Token} (h : Tiles offset cs ts) :
    ∀ t ∈ ts, offset ≤ t.span.start := by
  induction h with
  | nil => exact nofun
  | blank _ _ ih => exact fun t ht => Nat.le_trans (Nat.le_add_right _ _) (ih t ht)
  | comment _ _ _ ih => exact fun t ht => Nat.le_trans (Nat.le_add_right _ _) (ih t ht)
  | token _ _ _ _ hspan _ ih =>
    intro u hu
    rcases List.mem_cons.mp hu with rfl | hu
    · rw [hspan]
    · have hle := ih u hu
      rw [hspan] at hle
      exact Nat.le_trans (Nat.le_add_right _ _) hle

/-- Each token ends before the next one starts. -/
theorem Tiles.apart {offset : Nat} {cs : List Char} {ts : List Token} (h : Tiles offset cs ts) :
    ts.Pairwise fun t u => t.span.stop ≤ u.span.start := by
  induction h with
  | nil => exact .nil
  | blank _ _ ih => exact ih
  | comment _ _ _ ih => exact ih
  | token _ _ _ _ _ hrest ih => exact .cons hrest.le_start ih

/-! ## Lexemes -/

/-- A character that has no meaning of its own in a string. -/
theorem stringLength_cons {c : Char} (hslash : c ≠ '\\') (hline : c ≠ '\n') (hquote : c ≠ '"')
    (cs : List Char) : stringLength (c :: cs) = ((stringLength cs).1 + 1, (stringLength cs).2) := by
  rw [stringLength, if_neg hline, if_neg hquote]
  exact fun d cs' heq _ => hslash heq

theorem length_stringLength_le (cs : List Char) : (stringLength cs).1 ≤ cs.length := by
  fun_induction stringLength cs <;> simp only [List.length_cons, List.length_nil] <;> omega

/-- A token does not go past the end of the text. -/
theorem more_lexeme_le (c : Char) (cs : List Char) : (lexeme c cs).more ≤ cs.length := by
  have hrun := (List.takeWhile_prefix (l := cs) isWordChar).length_le
  have hform := lexemeForm c cs
  generalize lexeme c cs = found at hform ⊢
  cases hform with
  | word => exact hrun
  | number => exact hrun
  | string => exact length_stringLength_le cs
  | @pair d rest _ hcs => exact hcs ▸ Nat.le_add_left 1 rest.length
  | single => exact Nat.zero_le _
  | unexpected => exact Nat.zero_le _

section Line

variable {p : Char → Bool} (a b : List Char)

/-- What stops at a line feed does not see what stands behind it. -/
theorem takeWhile_append_newline (h : p '\n' = false) :
    (a ++ '\n' :: b).takeWhile p = a.takeWhile p := by
  induction a with
  | nil => rw [List.nil_append, List.takeWhile_cons, h]; rfl
  | cons c a ih => rw [List.cons_append, List.takeWhile_cons, List.takeWhile_cons, ih]

/-- A string literal ends at its line, so the lines behind have no part in it. -/
theorem stringLength_append_newline : stringLength (a ++ '\n' :: b) = stringLength a := by
  fun_induction stringLength a with
  | case1 => rfl
  | case2 => rfl
  | case3 c cs hc ih => rw [List.cons_append, List.cons_append, stringLength, if_neg hc, ih]
  | case4 => rfl
  | case5 => rfl
  | case6 c cs hslash hc hquote ih =>
    by_cases hback : c = '\\'
    · -- a backslash at the end of the line keeps nothing
      cases cs with
      | nil =>
        rw [hback]
        rfl
      | cons d cs => exact (hslash d cs hback rfl).elim
    · rw [List.cons_append, stringLength_cons hback hc hquote, ih]

theorem markLexeme?_append_newline (c : Char) :
    markLexeme? c (a ++ '\n' :: b) = markLexeme? c a := by
  cases a with
  | nil =>
    rw [markLexeme?, List.nil_append, List.head?_cons, Option.bind_some, Mark.ofPair?_newline]
    rfl
  | cons d a => rfl

/-- What a token is does not depend on what is behind its line. -/
theorem lexeme_append_newline (c : Char) : lexeme c (a ++ '\n' :: b) = lexeme c a := by
  unfold lexeme
  rw [takeWhile_append_newline a b (by decide), stringLength_append_newline,
    markLexeme?_append_newline]

end Line

/-! ## Scanning -/

/-- What is left of a line, and what stands behind it. -/
theorem exists_line_end (cs : List Char) : ∃ line rest, cs = line ++ rest ∧ '\n' ∉ line ∧
    ∀ c, rest.head? = some c → c = '\n' := by
  refine ⟨cs.takeWhile (· != '\n'), cs.dropWhile (· != '\n'),
    List.takeWhile_append_dropWhile.symm, ?_, ?_⟩
  · intro hmem
    have hchar := List.all_eq_true.mp List.all_takeWhile _ hmem
    exact absurd hchar (by decide)
  · intro c hc
    have hstop := List.head?_dropWhile_not (· != '\n') cs
    rw [hc] at hstop
    simpa using hstop

/-- A comment goes to the end of its line. -/
theorem scanFrom_comment {body rest : List Char} (hbody : '\n' ∉ body)
    (hstop : ∀ c, rest.head? = some c → c = '\n') (offset : Nat) :
    scanFrom 0 offset ('#' :: body ++ rest) =
      scanFrom 0 (offset + byteLength ('#' :: body)) rest := by
  have hend : rest.takeWhile (· != '\n') = [] := by
    cases rest with
    | nil => rfl
    | cons c rest =>
      rw [hstop c rfl]
      rfl
  have hrun : (body ++ rest).takeWhile (· != '\n') = body := by
    rw [List.takeWhile_append_of_pos (fun c hc => ?_), hend, List.append_nil]
    exact bne_iff_ne.mpr fun heq => hbody (heq ▸ hc)
  have hspace : isSpace '#' = false := by decide
  rw [List.cons_append, scanFrom]
  simp only [hspace, Bool.false_eq_true, if_false, if_true, hrun]
  rw [scanFrom_skip, byteLength, Nat.add_assoc]

/-- Where a token starts, it is cut off, and the rest of the text is read behind it. -/
theorem exists_token {c : Char} (hspace : isSpace c = false) (hcomment : c ≠ '#')
    (cs : List Char) (offset : Nat) : ∃ more rest, cs = more ++ rest ∧ '\n' ∉ c :: more ∧
      scanFrom 0 offset (c :: cs) = ⟨(lexeme c cs).kind, String.ofList (c :: more),
          ⟨offset, offset + byteLength (c :: more)⟩⟩ ::
        scanFrom 0 (offset + byteLength (c :: more)) rest := by
  have hcut := List.take_append_drop (lexeme c cs).more cs
  have hlexeme : lexeme c (cs.take (lexeme c cs).more ++ cs.drop (lexeme c cs).more) =
      ⟨(lexeme c cs).kind, (cs.take (lexeme c cs).more).length⟩ := by
    rw [hcut, List.length_take_of_le (more_lexeme_le c cs)]
  have htoken := scanFrom_token hspace hcomment hlexeme offset
  rw [hcut] at htoken
  refine ⟨_, _, hcut.symm, List.not_mem_cons_of_ne_of_not_mem ?_ (not_mem_take_lexeme c cs), htoken⟩
  rintro rfl
  exact absurd hspace (by decide)

/-- The tokens of a text tile it. -/
theorem tiles_scanFrom : ∀ (cs : List Char) (offset : Nat), Tiles offset cs (scanFrom 0 offset cs)
  | [], _ => .nil
  | c :: cs, offset => by
    by_cases hspace : isSpace c = true
    · rw [scanFrom_space hspace]
      exact .blank (isSpace_iff.mp hspace) (tiles_scanFrom cs _)
    · have hblank : c ∉ blanks := fun hmem => hspace (isSpace_iff.mpr hmem)
      rw [Bool.not_eq_true] at hspace
      by_cases hcomment : c = '#'
      · obtain ⟨body, rest, heq, hbody, hstop⟩ := exists_line_end cs
        have hshort : rest.length < (c :: cs).length := by
          simp only [heq, List.length_cons, List.length_append]
          omega
        rw [hcomment, heq, ← List.cons_append, scanFrom_comment hbody hstop]
        exact .comment hbody hstop (tiles_scanFrom rest _)
      · obtain ⟨more, rest, heq, hline, hscan⟩ := exists_token hspace hcomment cs offset
        have hshort : rest.length < (c :: cs).length := by
          simp only [heq, List.length_cons, List.length_append]
          omega
        rw [hscan, heq, ← List.cons_append]
        exact .token hblank hcomment hline rfl rfl (tiles_scanFrom rest _)
termination_by cs => cs.length

/-! ## Lines -/

/-- What was read on a line is not changed by what stands behind the line, and that is read as if
it stood alone. -/
theorem scanFrom_append_newline (b : List Char) : ∀ (a : List Char) {skip : Nat} (offset : Nat),
    skip ≤ a.length → scanFrom skip offset (a ++ '\n' :: b) =
      scanFrom skip offset a ++ scanFrom 0 (offset + byteLength a + 1) b
  | [], 0, offset, _ => rfl
  | c :: a, skip + 1, offset, hskip => by
    rw [List.cons_append, scanFrom, scanFrom,
      scanFrom_append_newline b a _ (Nat.le_of_succ_le_succ hskip), byteLength,
      Nat.add_assoc offset]
  | c :: a, 0, offset, _ => by
    have hnext := @scanFrom_append_newline b a
    rw [List.cons_append, scanFrom, scanFrom, byteLength, ← Nat.add_assoc offset]
    dsimp only
    split
    · exact hnext _ (Nat.zero_le _)
    · split
      · rw [takeWhile_append_newline a b (by decide)]
        exact hnext _ (List.takeWhile_prefix _).length_le
      · have hmore := more_lexeme_le c a
        rw [lexeme_append_newline, List.take_append_of_le_length hmore, hnext _ hmore,
          List.cons_append]

/-- A token of a text that starts `n` bytes further on. -/
def Token.shift (n : Nat) (t : Token) : Token :=
  { t with span := ⟨n + t.span.start, n + t.span.stop⟩ }

/-- The tokens do not depend on where a text stands. -/
theorem scanFrom_shift (n : Nat) : ∀ (cs : List Char) (skip offset : Nat),
    scanFrom skip (n + offset) cs = (scanFrom skip offset cs).map (Token.shift n)
  | [], skip, _ => by cases skip <;> rfl
  | c :: cs, skip + 1, offset => by
    rw [scanFrom, scanFrom, Nat.add_assoc, scanFrom_shift n cs]
  | c :: cs, 0, offset => by
    have hnext := scanFrom_shift n cs
    rw [scanFrom, scanFrom, Nat.add_assoc]
    dsimp only
    split
    · exact hnext _ _
    · split
      · exact hnext _ _
      · rw [hnext, List.map_cons, Token.shift, ← Nat.add_assoc]

/-- A text has the same tokens wherever it stands, moved by where it stands. -/
theorem scanFrom_eq_map_tokens (offset : Nat) (cs : List Char) :
    scanFrom 0 offset cs = (tokens (String.ofList cs)).map (Token.shift offset) := by
  rw [tokens, String.toList_ofList]
  exact scanFrom_shift offset cs 0 0

/-- The tokens of some lines, each read alone and moved to where the line stands, the first of them
at byte `offset`. -/
def linewise : Nat → List (List Char) → List Token
  | _, [] => []
  | offset, line :: lines =>
    (tokens (String.ofList line)).map (Token.shift offset) ++
      linewise (offset + byteLength line + 1) lines

/-- A text is scanned line by line: a line feed ends every token. -/
theorem scanFrom_intercalate : ∀ {lines : List (List Char)} (offset : Nat), lines ≠ [] →
    scanFrom 0 offset (['\n'].intercalate lines) = linewise offset lines
  | [line], offset, _ => by
    rw [List.intercalate_singleton, scanFrom_eq_map_tokens, linewise, linewise, List.append_nil]
  | line :: next :: lines, offset, _ => by
    rw [List.intercalate_cons_cons, List.append_assoc, List.singleton_append,
      scanFrom_append_newline _ _ _ (Nat.zero_le _), scanFrom_intercalate _ (List.cons_ne_nil _ _),
      scanFrom_eq_map_tokens]
    rfl

/-- The tokens of a text are those of its lines. -/
theorem tokens_eq_linewise (text : String) :
    tokens text = linewise 0 (text.toList.splitOn '\n') := by
  rw [← scanFrom_intercalate 0 (List.splitOn_ne_nil _ _), List.intercalate_splitOn, tokens]

/-! ## The end of the text -/

theorem kind_lexeme_ne_eof (c : Char) (cs : List Char) : (lexeme c cs).kind ≠ .eof := by
  have hform := lexemeForm c cs
  generalize lexeme c cs = found at hform ⊢
  cases hform with
  | word =>
    unfold wordKind
    split <;> simp
  | number =>
    unfold numberKind
    split <;> simp
  | string =>
    dsimp only
    split <;> simp
  | pair | single | unexpected => simp

/-- The scanner gives no token for the end of the text. -/
theorem kind_ne_eof_of_mem {text : String} {t : Token} (h : t ∈ tokens text) : t.kind ≠ .eof := by
  obtain ⟨c, rest, hkind, -⟩ := exists_lexeme h
  rw [hkind]
  exact kind_lexeme_ne_eof c rest

/-- A cursor shows the tokens ahead one after another, and then the end of the text. -/
theorem Cursor.shown_iterate_advance (k : Nat) : ∀ c : Cursor,
    ((advance^[k] c).kind, (advance^[k] c).span) =
      (c.ahead[k]?.map fun t => (t.kind, t.span)).getD (.eof, ⟨c.stop, c.stop⟩) := by
  induction k with
  | zero =>
    rintro ⟨_ | ⟨t, rest⟩, behind, stop, findings⟩
    · rfl
    · rfl
  | succ k ih =>
    rintro ⟨_ | ⟨t, rest⟩, behind, stop, findings⟩
    · rw [Function.iterate_succ_apply, advance, ih]
      rfl
    · rw [Function.iterate_succ_apply, advance, ih]
      rfl

/-! ## Findings -/

/-- There is one finding for each malformed token, at its span. -/
theorem map_filterMap_finding? (ts : List Token) :
    (ts.filterMap Token.finding?).map (fun f => (f.code, f.span)) =
      (ts.filter fun t => t.kind.isMalformed).map fun t => (Code.lexical, t.span) := by
  induction ts with
  | nil => rfl
  | cons t ts ih =>
    obtain ⟨kind, text, span⟩ := t
    cases kind with
    | malformed why => exact congrArg (List.cons (Code.lexical, span)) ih
    | _ => exact ih

/-! ## Lines of a program -/

/-- The tokens of whole lines do not depend on what comes behind. -/
theorem scanFrom_lineChars_append (rest : List Char) : ∀ (lines : List String) (offset : Nat),
    scanFrom 0 offset (lineChars lines ++ rest) = scanFrom 0 offset (lineChars lines) ++
      scanFrom 0 (offset + byteLength (lineChars lines)) rest
  | [], _ => rfl
  | line :: lines, offset => by
    have hsize : '\n'.utf8Size = 1 := by decide
    rw [lineChars_cons, List.append_assoc, List.cons_append,
      scanFrom_append_newline _ _ _ (Nat.zero_le _), scanFrom_append_newline _ _ _ (Nat.zero_le _),
      scanFrom_lineChars_append rest lines, byteLength_append, byteLength, hsize, List.append_assoc,
      ← Nat.add_assoc, ← Nat.add_assoc]

end LineQuery.Syntax

namespace LineQuery.Program

open LineQuery.Syntax
open LineQuery.Text (byteLength byteLength_append encodeUtf8 lineChars lineChars_append
  lineChars_cons)

variable {p : Program} {k : Nat} {line : String}

/-- The tokens of a program are those of what stands before a line of the body, those of the line,
and those of what stands behind it. -/
theorem tokens_text_of_line (hk : p.body[k]? = some line) : tokens p.text =
    scanFrom 0 0 (lineChars (p.linesBefore k)) ++
      (tokens line).map (Token.shift (p.bodyOffset k)) ++
      scanFrom 0 (p.bodyOffset k + byteLength line.toList + 1)
        (lineChars (p.body.drop (k + 1) ++ ["\x7d"])) := by
  have hline := scanFrom_eq_map_tokens (p.bodyOffset k) line.toList
  rw [String.ofList_toList] at hline
  rw [tokens, toList_text, textLines_eq hk, lineChars_append, scanFrom_lineChars_append,
    Nat.zero_add, ← bodyOffset_eq, lineChars_cons,
    scanFrom_append_newline _ _ _ (Nat.zero_le _), hline, List.append_assoc]

/-- No line of the body takes the brace that closes the entry point: it is the last token. -/
theorem exists_tokens_text_eq_concat (p : Program) : ∃ front, tokens p.text = front ++
    [⟨.mark .rightBrace, "\x7d",
      ⟨p.bodyOffset p.body.length, p.bodyOffset p.body.length + 1⟩⟩] := by
  refine ⟨scanFrom 0 0 (lineChars (p.linesBefore p.body.length)), ?_⟩
  rw [tokens, text_eq_textBefore, String.toList_append, toList_textBefore,
    scanFrom_lineChars_append, Nat.zero_add, ← bodyOffset_eq]
  rfl

/-- Another line of the body changes no token of the other lines; those behind it are moved. -/
theorem exists_tokens_text_of_body (imports above below : List String) :
    ∃ (start : Nat) (front back : List Token), ∀ line : String,
      tokens (text ⟨imports, above ++ line :: below⟩) =
        front ++ (tokens line).map (Token.shift start) ++
          back.map (Token.shift (byteLength line.toList)) := by
  let before := linesBefore ⟨imports, above⟩ above.length
  let start := byteLength (lineChars before)
  refine ⟨start, scanFrom 0 0 (lineChars before),
    scanFrom 0 (start + 1) (lineChars (below ++ ["\x7d"])), fun line => ?_⟩
  generalize hp : (⟨imports, above ++ line :: below⟩ : Program) = p
  have hline : p.body[above.length]? = some line := by
    rw [← hp]
    simp
  have hbefore : p.linesBefore above.length = before := by
    rw [← hp]
    simp only [before, linesBefore, List.take_left, List.take_length]
  have hbehind : p.body.drop (above.length + 1) = below := by
    rw [← hp]
    simp
  have hstart : p.bodyOffset above.length = start := by
    rw [bodyOffset_eq, hbefore]
  have hmoved : start + byteLength line.toList + 1 = byteLength line.toList + (start + 1) := by
    omega
  rw [tokens_text_of_line hline, hbefore, hstart, hbehind, hmoved, scanFrom_shift]

/-- Reading tokens goes line by line and leaves no more than blanks and comments out. In particular
no line of a body takes the brace behind it or changes the tokens of another line. Texts are so
short that words of 32 bits hold the offsets in them, and the columns behind their tokens; words
pick the tokens out then. -/
theorem tokens_tile_lines :
    (∀ text : String, (encodeUtf8 text).length + 1 < UInt32.size →
      Tiles 0 text.toList (tokens text) ∧
      (∀ t ∈ tokens text, t.PickedOut text) ∧
      (tokens text).Pairwise (fun t u => t.span.stop ≤ u.span.start) ∧
      tokens text = linewise 0 (text.toList.splitOn '\n') ∧
      ((tokens text).filterMap Token.finding?).map (fun f => (f.code, f.span)) =
        ((tokens text).filter fun t => t.kind.isMalformed).map (fun t => (Code.lexical, t.span)) ∧
      (∃ later, (parse text).2 = (tokens text).filterMap Token.finding? ++ later) ∧
      (∀ t ∈ tokens text, t.kind ≠ .eof) ∧
      ∀ k, let c := Cursor.advance^[k] (.start (tokens text) text.utf8ByteSize)
        (c.kind, c.span) = ((tokens text)[k]?.map fun t => (t.kind, t.span)).getD
          (.eof, ⟨text.utf8ByteSize, text.utf8ByteSize⟩)) ∧
    (∀ p : Program, (encodeUtf8 p.text).length < UInt32.size →
      ∃ front, tokens p.text = front ++
        [⟨.mark .rightBrace, "\x7d",
          ⟨p.bodyOffset p.body.length, p.bodyOffset p.body.length + 1⟩⟩]) ∧
    ∀ imports above below : List String,
      ∃ (start : Nat) (front back : List Token), ∀ line : String,
        (encodeUtf8 (text ⟨imports, above ++ line :: below⟩)).length < UInt32.size →
        tokens (text ⟨imports, above ++ line :: below⟩) =
          front ++ (tokens line).map (Token.shift start) ++
            back.map (Token.shift (byteLength line.toList)) := by
  refine ⟨fun text hsize => ?_, fun p _ => exists_tokens_text_eq_concat p,
    fun imports above below => ?_⟩
  · have htiles := tiles_scanFrom text.toList 0
    refine ⟨htiles, fun t => pickedOut_of_token (Nat.lt_of_succ_lt hsize), htiles.apart,
      tokens_eq_linewise text, map_filterMap_finding? _, ⟨_, rfl⟩, fun t => kind_ne_eof_of_mem,
      fun k => ?_⟩
    exact Cursor.shown_iterate_advance k _
  · obtain ⟨start, front, back, htokens⟩ := exists_tokens_text_of_body imports above below
    exact ⟨start, front, back, fun line _ => htokens line⟩

/-- A string that is not closed ends with its line, also behind a backslash, and in a body it leaves
the brace behind it alone. -/
theorem tokens_tile_lines_of_unclosed :
    let text := "# \"\n\"a\\\nb"
    let p : Program := ⟨["core"], ["from l in lines select \"\\"]⟩
    (encodeUtf8 text).length + 1 < UInt32.size ∧
    (tokens text).map (fun t => (t.kind, t.span)) =
      [(.malformed .unterminatedString, ⟨4, 7⟩), (.ident, ⟨8, 9⟩)] ∧
    Tiles 0 text.toList (tokens text) ∧ (∀ t ∈ tokens text, t.PickedOut text) ∧
    (encodeUtf8 p.text).length < UInt32.size ∧
    (∃ front, tokens p.text = front ++ [⟨.mark .rightBrace, "\x7d", ⟨57, 58⟩⟩]) ∧
    ∃ (start : Nat) (front back : List Token), tokens p.text =
      front ++ (tokens "from l in lines select \"\\").map (Token.shift start) ++
        back.map (Token.shift 25) := by
  intro text p
  obtain ⟨hlines, hbraces, hbodies⟩ := tokens_tile_lines
  have hsize : (encodeUtf8 text).length + 1 < UInt32.size := by decide +kernel
  have hsize' : (encodeUtf8 p.text).length < UInt32.size := by decide +kernel
  obtain ⟨htiles, hpicked, -⟩ := hlines text hsize
  obtain ⟨front, hbrace⟩ := hbraces p hsize'
  obtain ⟨start, front', back, hbody⟩ := hbodies ["core"] [] []
  have hoffset : p.bodyOffset p.body.length = 57 := by decide +kernel
  rw [hoffset] at hbrace
  exact ⟨hsize, by decide +kernel, htiles, hpicked, hsize', ⟨front, hbrace⟩, start, front', back,
    hbody _ hsize'⟩

end LineQuery.Program
