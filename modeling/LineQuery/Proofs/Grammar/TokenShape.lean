import LineQuery.Syntax.Scan
import Mathlib.Algebra.Group.Nat.Defs

/-! # The texts of tokens

What the kind of a token says of its text: a name is a word, an integer is a run of digits.
A token is cut from the text at one place, so this is read off `lexeme`.
-/

namespace LineQuery.Syntax

/-- A word: a character that starts one, and characters that go on with it. -/
def Word (cs : List Char) : Prop :=
  ∃ c rest, cs = c :: rest ∧ isWordStart c = true ∧ rest.all isWordChar = true

/-- A run of digits. -/
def Digits (cs : List Char) : Prop :=
  cs ≠ [] ∧ cs.all Text.isDigit = true

theorem take_length_takeWhile {α : Type} (p : α → Bool) :
    ∀ xs : List α, xs.take (xs.takeWhile p).length = xs.takeWhile p
  | [] => rfl
  | x :: xs => by
    rw [List.takeWhile_cons]
    split
    · rw [List.length_cons, List.take_succ_cons, take_length_takeWhile p xs]
    · rfl

/-- Every token is the lexeme at some place of the text. -/
theorem exists_lexeme : ∀ {cs : List Char} {skip offset : Nat} {t : Token},
    t ∈ scanFrom skip offset cs → ∃ c rest, t.kind = (lexeme c rest).kind ∧
      t.text = String.ofList (c :: rest.take (lexeme c rest).more)
  | [], skip, offset, t, h => by
    cases skip <;> exact absurd h List.not_mem_nil
  | _ :: cs, skip + 1, offset, t, h => @exists_lexeme cs skip _ t h
  | c :: cs, 0, offset, t, h => by
    rw [scanFrom] at h
    dsimp only at h
    split at h
    · exact exists_lexeme h
    · split at h
      · exact exists_lexeme h
      · rcases List.mem_cons.mp h with rfl | h
        · exact ⟨c, cs, rfl, rfl⟩
        · exact exists_lexeme h

theorem wordKind_ne_int (word : List Char) : wordKind word ≠ .int := by
  unfold wordKind
  split <;> exact nofun

theorem numberKind_ne_ident (run : List Char) : numberKind run ≠ .ident := by
  unfold numberKind
  split <;> exact nofun

/-- The forms that a token which starts with `c :: cs` may have. -/
inductive LexemeForm (c : Char) (cs : List Char) : Lexeme → Prop where
  | word : isWordStart c = true → LexemeForm c cs
      ⟨wordKind (c :: cs.takeWhile isWordChar), (cs.takeWhile isWordChar).length⟩
  | number : Text.isDigit c = true → LexemeForm c cs
      ⟨numberKind (c :: cs.takeWhile isWordChar), (cs.takeWhile isWordChar).length⟩
  | string : LexemeForm c cs
      ⟨if (stringLength cs).2 then .str else .malformed .unterminatedString, (stringLength cs).1⟩
  | pair {d : Char} {rest : List Char} {m : Mark} : cs = d :: rest → Mark.ofPair? c d = some m →
      LexemeForm c cs ⟨.mark m, 1⟩
  | single {m : Mark} : Mark.ofChar? c = some m → LexemeForm c cs ⟨.mark m, 0⟩
  | unexpected : LexemeForm c cs ⟨.malformed (.unexpected c), 0⟩

/-- A mark is one character or two, which is all of its token. -/
theorem form_of_markLexeme? {c : Char} {cs : List Char} {found : Lexeme}
    (h : markLexeme? c cs = some found) : LexemeForm c cs found := by
  unfold markLexeme? at h
  split at h
  · rename_i m hpair
    obtain rfl := Option.some.inj h
    obtain ⟨d, hhead, hd⟩ := Option.bind_eq_some_iff.mp hpair
    obtain ⟨rest, hcs⟩ := List.head?_eq_some_iff.mp hhead
    exact .pair hcs hd
  · obtain ⟨m, hm, rfl⟩ := Option.map_eq_some_iff.mp h
    exact .single hm

/-- Each token is spelled as its kind says. -/
theorem lexemeForm (c : Char) (cs : List Char) : LexemeForm c cs (lexeme c cs) := by
  unfold lexeme
  dsimp only
  split
  · exact .word ‹_›
  · split
    · exact .number ‹_›
    · split
      · exact .string
      · cases hmark : markLexeme? c cs with
        | none => exact .unexpected
        | some found => exact form_of_markLexeme? hmark

/-- The text of a name is a word. -/
theorem word_of_ident {text : String} {t : Token} (h : t ∈ tokens text)
    (hkind : t.kind = .ident) : Word t.text.toList := by
  obtain ⟨c, cs, hlex, htext⟩ := exists_lexeme h
  have hform := lexemeForm c cs
  rw [hkind] at hlex
  generalize lexeme c cs = found at hform hlex htext
  cases hform with
  | word hstart =>
    -- A word start takes all word characters behind it.
    rw [htext, String.toList_ofList, take_length_takeWhile]
    exact ⟨c, _, rfl, hstart, List.all_takeWhile⟩
  | number => exact absurd hlex.symm (numberKind_ne_ident _)
  | string => split at hlex <;> cases hlex
  | pair | single | unexpected => cases hlex

/-- The text of an integer is a run of digits. -/
theorem digits_of_int {text : String} {t : Token} (h : t ∈ tokens text)
    (hkind : t.kind = .int) : Digits t.text.toList := by
  obtain ⟨c, cs, hlex, htext⟩ := exists_lexeme h
  have hform := lexemeForm c cs
  rw [hkind] at hlex
  generalize lexeme c cs = found at hform hlex htext
  cases hform with
  | word => exact absurd hlex.symm (wordKind_ne_int _)
  | number =>
    rw [htext, String.toList_ofList, take_length_takeWhile]
    refine ⟨List.cons_ne_nil _ _, ?_⟩
    unfold numberKind at hlex
    split at hlex
    · assumption
    · cases hlex
  | string => split at hlex <;> cases hlex
  | pair | single | unexpected => cases hlex

/-- No mark ends in a line end. -/
theorem Mark.ofPair?_newline (c : Char) : Mark.ofPair? c '\n' = none := by
  simp [Mark.ofPair?]

/-! ## Names and numbers -/

/-- A word holds nothing but word characters. -/
theorem Word.not_mem {cs : List Char} {c : Char} (h : Word cs) (hc : isWordChar c = false) :
    c ∉ cs := by
  obtain ⟨first, rest, rfl, hfirst, hrest⟩ := h
  have hword : ∀ d ∈ first :: rest, isWordChar d = true := by
    refine List.forall_mem_cons.mpr ⟨?_, List.all_eq_true.mp hrest⟩
    rw [isWordChar, hfirst, Bool.true_or]
  intro hmem
  exact Bool.false_ne_true (hc.symm.trans (hword c hmem))

/-- No word is the placeholder for a missing name. -/
theorem Word.ne_missing {name : String} (h : Word name.toList) : name ≠ "<missing>" := by
  rintro rfl
  obtain ⟨c, rest, heq, hstart, -⟩ := h
  cases heq
  exact absurd hstart (by decide)

theorem exists_readDigits : ∀ {cs : List Char} (acc : Nat), cs.all Text.isDigit = true →
    ∃ n, Text.readDigits acc cs = some n
  | [], acc, _ => ⟨acc, rfl⟩
  | c :: cs, acc, h => by
    obtain ⟨hc, hcs⟩ := Bool.and_eq_true_iff.mp h
    rw [Text.readDigits, if_pos hc]
    exact exists_readDigits _ hcs

/-- The digits of a number below `2 ^ 63` are an integer, and no others. -/
theorem isSome_toInt64? (n : Nat) : (Text.toInt64? n).isSome = true ↔ n < 2 ^ 63 := by
  unfold Text.toInt64?
  split
  · rename_i h
    have : n < 2 ^ 63 := by omega
    exact iff_of_true rfl this
  · rename_i h
    have : ¬ n < 2 ^ 63 := by omega
    exact iff_of_false nofun this

/-- A run of digits is a number, which is read as an integer if it fits in 64 bits with a
sign. -/
theorem Digits.readInt64? {cs : List Char} (h : Digits cs) : ∃ n, Text.readNat? cs = some n ∧
    ((Text.readInt64? cs).isSome = true ↔ n < 2 ^ 63) := by
  obtain ⟨hne, hall⟩ := h
  match cs with
  | [] => exact absurd rfl hne
  | c :: rest =>
    obtain ⟨n, hn⟩ := exists_readDigits 0 hall
    obtain ⟨hc, -⟩ := Bool.and_eq_true_iff.mp hall
    have hread : Text.readInt? (c :: rest) = some (n : Int) := by
      unfold Text.readInt?
      split
      · rename_i heq
        cases heq
        exact absurd hc (by decide)
      · rename_i heq
        cases heq
        exact absurd hc (by decide)
      · exact congrArg (Option.map Int.ofNat) hn
    refine ⟨n, hn, ?_⟩
    rw [Text.readInt64?, hread, Option.bind_some]
    exact isSome_toInt64? n

end LineQuery.Syntax
