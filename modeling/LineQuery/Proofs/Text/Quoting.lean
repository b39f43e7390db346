import LineQuery.Text.Escape

/-! # Quoted texts

Every text can be written between quotes: the escapes keep line ends and backslashes out, and a
quote gets a backslash in front of it. Reading the escapes gives the text back, and so it does
without the quotes.
-/

namespace LineQuery.Text

/-- A character as it is written between quotes, where a quote would be the end. -/
def quoteChar (c : Char) : List Char :=
  if c = '"' then ['\\', '"'] else [c]

/-- A text as it is written between quotes. -/
def quotedBody (cs : List Char) : List Char :=
  (encodeEscapes cs).flatMap quoteChar

def quoted (cs : List Char) : List Char :=
  '"' :: quotedBody cs ++ ['"']

/-! ## Writing one character -/

/-- A character is written as itself, or as a backslash and a letter that stands for it. -/
theorem escapeChar_cases (c : Char) :
    escapeChar c = [c] ∧ c ∉ ['\\', '\t', '\n', '\r'] ∨
      ∃ d ∈ ['\\', 't', 'n', 'r'], escapeChar c = ['\\', d] ∧ unescape? d = some c := by
  unfold escapeChar
  split
  · exact .inr ⟨'\\', by decide, rfl, rfl⟩
  · exact .inr ⟨'t', by decide, rfl, rfl⟩
  · exact .inr ⟨'n', by decide, rfl, rfl⟩
  · exact .inr ⟨'r', by decide, rfl, rfl⟩
  · rename_i hback htab hline hreturn
    refine .inl ⟨rfl, ?_⟩
    simp only [List.mem_cons, List.not_mem_nil, or_false, not_or]
    exact ⟨hback, htab, hline, hreturn⟩

theorem quotedBody_cons (c : Char) (cs : List Char) :
    quotedBody (c :: cs) = (escapeChar c).flatMap quoteChar ++ quotedBody cs := by
  rw [quotedBody, encodeEscapes, List.flatMap_cons, List.flatMap_append]
  rfl

/-- Between quotes a character stands for itself or behind a backslash. -/
theorem quoteChar_escapeChar (c : Char) :
    (escapeChar c).flatMap quoteChar = [c] ∧ c ∉ ['\\', '\t', '\n', '\r', '"'] ∨
      ∃ d ∈ ['\\', 't', 'n', 'r', '"'], (escapeChar c).flatMap quoteChar = ['\\', d] ∧
        unescape? d = some c := by
  rcases escapeChar_cases c with ⟨heq, hc⟩ | ⟨d, hd, heq, hread⟩
  · rw [heq, List.flatMap_singleton]
    by_cases hquote : c = '"'
    · rw [hquote]
      exact .inr ⟨'"', by decide, rfl, rfl⟩
    · exact .inl ⟨if_neg hquote, by simpa [hquote] using hc⟩
  · refine .inr ⟨d, List.mem_append_left ['"'] hd, ?_, hread⟩
    have hquote : d ≠ '"' := by
      rintro rfl
      exact absurd hd (by decide)
    simp [heq, quoteChar, hquote]

/-- Characters that need no backslash stand for themselves between quotes. -/
theorem quotedBody_of_plain : ∀ {cs : List Char}, (∀ c ∈ cs, c ∉ ['\\', '\t', '\n', '\r', '"']) →
    quotedBody cs = cs
  | [], _ => rfl
  | c :: cs, h => by
    obtain ⟨hc, hcs⟩ := List.forall_mem_cons.mp h
    rw [quotedBody_cons, quotedBody_of_plain hcs]
    rcases quoteChar_escapeChar c with ⟨heq, -⟩ | ⟨d, hd, -, hread⟩
    · rw [heq, List.singleton_append]
    · have hletters : ∀ d ∈ ['\\', 't', 'n', 'r', '"'],
          ∃ e ∈ ['\\', '\t', '\n', '\r', '"'], unescape? d = some e := by
        simp [unescape?]
      obtain ⟨e, he, hread'⟩ := hletters d hd
      obtain rfl : c = e := Option.some.inj (hread.symm.trans hread')
      exact absurd he hc

/-! ## What the escapes keep out -/

/-- No tab and no line end is left in an escaped text. -/
theorem not_mem_encodeEscapes {d : Char} (hd : d ∈ ['\t', '\n', '\r']) (cs : List Char) :
    d ∉ encodeEscapes cs := by
  intro hmem
  obtain ⟨c, -, hc⟩ := List.mem_flatMap.mp hmem
  rcases escapeChar_cases c with ⟨heq, hplain⟩ | ⟨e, he, heq, -⟩
  · obtain rfl : d = c := List.mem_singleton.mp (heq ▸ hc)
    exact hplain (List.mem_cons_of_mem '\\' hd)
  · have hletters : ∀ d ∈ ['\t', '\n', '\r'], ∀ e ∈ ['\\', 't', 'n', 'r'], d ∉ ['\\', e] := by
      simp
    exact hletters d hd e he (heq ▸ hc)

/-- Neither is there one between quotes. -/
theorem not_mem_quotedBody {d : Char} (hd : d ∈ ['\t', '\n', '\r']) (cs : List Char) :
    d ∉ quotedBody cs := by
  intro hmem
  obtain ⟨c, hc, hdc⟩ := List.mem_flatMap.mp hmem
  unfold quoteChar at hdc
  split at hdc
  · have hquote : ∀ d ∈ ['\t', '\n', '\r'], d ∉ ['\\', '"'] := by simp
    exact hquote d hd hdc
  · obtain rfl := List.mem_singleton.mp hdc
    exact not_mem_encodeEscapes hd cs hc

/-- A text in quotes stands in one line. -/
theorem not_mem_quoted {d : Char} (hd : d ∈ ['\t', '\n', '\r']) (cs : List Char) :
    d ∉ quoted cs := by
  have hquote : d ≠ '"' := by
    rintro rfl
    exact absurd hd (by decide)
  simp [quoted, hquote, not_mem_quotedBody hd cs]

/-! ## Reading -/

theorem decodeEscapes_plain {c : Char} (hback : c ≠ '\\') (rest : List Char) :
    decodeEscapes (c :: rest) = c :: decodeEscapes rest := by
  rw [decodeEscapes, if_neg hback]
  exact fun _ _ hslash _ => hback hslash

theorem decodeEscapes_escaped {c d : Char} (hread : unescape? d = some c) (rest : List Char) :
    decodeEscapes ('\\' :: d :: rest) = c :: decodeEscapes rest := by
  rw [decodeEscapes, hread]
  rfl

/-- What is written character by character is read as the text if each character is. -/
theorem decodeEscapes_flatMap {write : Char → List Char} (hwrite : ∀ c rest,
      decodeEscapes (write c ++ rest) = c :: decodeEscapes rest) :
    ∀ cs : List Char, decodeEscapes (cs.flatMap write) = cs
  | [] => rfl
  | c :: cs => by rw [List.flatMap_cons, hwrite, decodeEscapes_flatMap hwrite cs]

/-- Nothing is lost in the escapes. -/
theorem decodeEscapes_encodeEscapes (cs : List Char) : decodeEscapes (encodeEscapes cs) = cs := by
  refine decodeEscapes_flatMap (fun c rest => ?_) cs
  rcases escapeChar_cases c with ⟨heq, hc⟩ | ⟨d, -, heq, hread⟩
  · rw [heq]
    exact decodeEscapes_plain (List.ne_of_not_mem_cons hc) rest
  · rw [heq]
    exact decodeEscapes_escaped hread rest

/-- Nothing is lost between quotes. -/
theorem decodeEscapes_quotedBody (cs : List Char) : decodeEscapes (quotedBody cs) = cs := by
  rw [quotedBody, encodeEscapes, List.flatMap_assoc]
  refine decodeEscapes_flatMap (fun c rest => ?_) cs
  rcases quoteChar_escapeChar c with ⟨heq, hc⟩ | ⟨d, -, heq, hread⟩
  · rw [heq]
    exact decodeEscapes_plain (List.ne_of_not_mem_cons hc) rest
  · rw [heq]
    exact decodeEscapes_escaped hread rest

end LineQuery.Text
