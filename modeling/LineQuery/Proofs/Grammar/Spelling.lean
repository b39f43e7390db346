import LineQuery.Proofs.Grammar.Frame
import LineQuery.Proofs.Grammar.Reading
import LineQuery.Proofs.Grammar.Tiling
import LineQuery.Proofs.Text.Numerals
import LineQuery.Proofs.Text.Quoting

/-! # Spelled tokens

Known text is read as the same tokens wherever it stands, as long as the word or number that it
may end in does not go on behind it. Texts are put together token by token, or one behind another
if the second one does not go on with a word.
-/

namespace LineQuery.Syntax

open LineQuery.Text (byteLength byteLength_append)

/-- A token that nothing is reported about: it is not malformed, and an integer fits. -/
structure Token.Sound (t : Token) : Prop where
  fits : t.Fits
  formed : t.kind.isMalformed = false

/-- Text that no word goes on with. -/
def EndsWord (rest : List Char) : Prop :=
  rest.takeWhile isWordChar = []

/-- A word ends in front of any character that words do not have. -/
theorem endsWord_cons {c : Char} (h : isWordChar c = false) (rest : List Char) :
    EndsWord (c :: rest) := by
  rw [EndsWord, List.takeWhile_cons, h]
  rfl

/-- Wherever `cs` stands, it is read as tokens for which `D` holds, unless a word goes on behind
it. -/
def Spells (cs : List Char) (D : List Token → Prop) : Prop :=
  ∀ (offset : Nat) {rest : List Char}, EndsWord rest → ∃ ts, D ts ∧ (∀ t ∈ ts, t.Sound) ∧
    scanFrom 0 offset (cs ++ rest) = ts ++ scanFrom 0 (offset + byteLength cs) rest

/-- Tokens for which `D` holds in front of tokens for which `E` does. -/
def Joined (D E : List Token → Prop) (ts : List Token) : Prop :=
  ∃ us vs, ts = us ++ vs ∧ D us ∧ E vs

/-- A token for which `P` holds in front of tokens for which `D` does. -/
def Led (P : Token → Prop) (D : List Token → Prop) (ts : List Token) : Prop :=
  ∃ t us, ts = t :: us ∧ P t ∧ D us

/-- Tokens for which `D` holds between two marks. -/
def Between (left right : Mark) (D : List Token → Prop) (ts : List Token) : Prop :=
  ∃ t us u, ts = t :: us ++ [u] ∧ t.kind = .mark left ∧ D us ∧ u.kind = .mark right

variable {cs ds : List Char} {D E : List Token → Prop}

/-! ## Composition -/

theorem spells_nil (h : D []) : Spells [] D :=
  fun _ _ _ => ⟨[], h, nofun, rfl⟩

theorem Spells.mono (hcs : Spells cs D) (h : ∀ ts, D ts → E ts) : Spells cs E := by
  intro offset rest hrest
  obtain ⟨ts, hD, hsound, hscan⟩ := hcs offset hrest
  exact ⟨ts, h ts hD, hsound, hscan⟩

/-- Text that is cut in front of no word character spells its two parts one after the other. -/
theorem Spells.append {d : Char} (hd : isWordChar d = false) (hcs : Spells cs D)
    (hds : Spells (d :: ds) E) : Spells (cs ++ d :: ds) (Joined D E) := by
  intro offset rest hrest
  obtain ⟨us, hD, hsound, hscan⟩ := hcs offset (endsWord_cons hd (ds ++ rest))
  obtain ⟨vs, hE, hsound', hscan'⟩ := hds (offset + byteLength cs) hrest
  refine ⟨us ++ vs, ⟨us, vs, rfl, hD, hE⟩, List.forall_mem_append.mpr ⟨hsound, hsound'⟩, ?_⟩
  rw [List.cons_append] at hscan'
  rw [List.append_assoc, List.cons_append, hscan, hscan', byteLength_append, List.append_assoc,
    Nat.add_assoc]

/-- A blank in front of a text. -/
theorem Spells.blank {c : Char} (hc : isSpace c = true) (hcs : Spells cs D) :
    Spells (c :: cs) D := by
  intro offset rest hrest
  obtain ⟨ts, hD, hsound, hscan⟩ := hcs (offset + c.utf8Size) hrest
  refine ⟨ts, hD, hsound, ?_⟩
  rw [List.cons_append, scanFrom_space hc, hscan, byteLength, Nat.add_assoc]

/-- A space in front changes no token. -/
theorem Spells.space (hcs : Spells cs D) : Spells (' ' :: cs) D :=
  hcs.blank (by decide)

/-- A token in front of a text. -/
theorem Spells.token {c : Char} {kind : TokenKind} (hspace : isSpace c = false)
    (hcomment : c ≠ '#') (hlex : ∀ rest, EndsWord rest →
      lexeme c (cs ++ (ds ++ rest)) = ⟨kind, cs.length⟩)
    (hsound : ∀ t : Token, t.kind = kind → t.text = String.ofList (c :: cs) → t.Sound)
    (hds : Spells ds D) : Spells (c :: cs ++ ds)
      (Led (fun t => t.kind = kind ∧ t.text = String.ofList (c :: cs)) D) := by
  intro offset rest hrest
  obtain ⟨us, hD, hus, hscan⟩ := hds (offset + byteLength (c :: cs)) hrest
  have htoken := scanFrom_token hspace hcomment (hlex rest hrest) offset
  generalize ht : Token.mk kind (String.ofList (c :: cs))
    ⟨offset, offset + byteLength (c :: cs)⟩ = t at htoken
  have hkind : t.kind = kind := ht ▸ rfl
  have htext : t.text = String.ofList (c :: cs) := ht ▸ rfl
  refine ⟨t :: us, ⟨t, us, rfl, ⟨hkind, htext⟩, hD⟩,
    List.forall_mem_cons.mpr ⟨hsound t hkind htext, hus⟩, ?_⟩
  rw [List.append_assoc, List.cons_append, htoken, hscan, byteLength_append, Nat.add_assoc]
  rfl

/-- A text that is one token. -/
theorem spells_token {c : Char} {kind : TokenKind} (hspace : isSpace c = false)
    (hcomment : c ≠ '#') (hlex : ∀ rest, EndsWord rest → lexeme c (cs ++ rest) = ⟨kind, cs.length⟩)
    (hsound : ∀ t : Token, t.kind = kind → t.text = String.ofList (c :: cs) → t.Sound) :
    Spells (c :: cs) fun ts =>
      ∃ t, ts = [t] ∧ t.kind = kind ∧ t.text = String.ofList (c :: cs) := by
  have hnil : Spells [] (· = []) := spells_nil rfl
  have hlex' : ∀ rest, EndsWord rest → lexeme c (cs ++ ([] ++ rest)) = ⟨kind, cs.length⟩ := by
    intro rest hrest
    rw [List.nil_append, hlex rest hrest]
  have htoken := hnil.token hspace hcomment hlex' hsound
  rw [List.append_nil] at htoken
  refine htoken.mono ?_
  rintro _ ⟨t, us, rfl, ⟨hkind, htext⟩, rfl⟩
  exact ⟨t, rfl, hkind, htext⟩

/-! ## Marks -/

theorem Token.sound_of_mark {t : Token} {m : Mark} (h : t.kind = .mark m) : t.Sound :=
  ⟨Token.fits_of_kind_ne (by simp [h]), by rw [h]; rfl⟩

/-- A mark of one character in front of a text. -/
theorem Spells.mark {c : Char} {m : Mark} (hds : Spells ds D) (hspace : isSpace c = false)
    (hcomment : c ≠ '#') (hlex : ∀ rest, lexeme c (ds ++ rest) = ⟨.mark m, 0⟩) :
    Spells (c :: ds) (Led (fun t => t.kind = .mark m) D) := by
  refine (@Spells.token [] ds D c _ hspace hcomment (fun rest _ => hlex rest)
    (fun _ hkind _ => Token.sound_of_mark hkind) hds).mono ?_
  rintro _ ⟨t, us, rfl, ⟨hkind, -⟩, hD⟩
  exact ⟨t, us, rfl, hkind, hD⟩

/-- Two marks around a text spell the marks around its tokens. -/
theorem Spells.between {l r : Char} {left right : Mark} (hcs : Spells cs D)
    (hl : isSpace l = false ∧ l ≠ '#') (hr : isSpace r = false ∧ r ≠ '#')
    (hword : isWordChar r = false) (hleft : ∀ rest, lexeme l rest = ⟨.mark left, 0⟩)
    (hright : ∀ rest, lexeme r rest = ⟨.mark right, 0⟩) :
    Spells (l :: cs ++ [r]) (Between left right D) := by
  have hnil : Spells [] (· = []) := spells_nil rfl
  have hinner := hcs.append hword (hnil.mark hr.1 hr.2 hright)
  refine (hinner.mark hl.1 hl.2 fun rest => hleft _).mono ?_
  rintro _ ⟨t, _, rfl, hkind, us, _, rfl, hD, u, _, rfl, hkind', rfl⟩
  exact ⟨t, us, u, rfl, hkind, hD, hkind'⟩

theorem Spells.parens (hcs : Spells cs D) :
    Spells ('(' :: cs ++ [')']) (Between .leftParen .rightParen D) :=
  hcs.between (by decide) (by decide) (by decide) (fun rest => by cases rest <;> rfl)
    fun rest => by cases rest <;> rfl

theorem Spells.brackets (hcs : Spells cs D) :
    Spells ('[' :: cs ++ [']']) (Between .leftBracket .rightBracket D) :=
  hcs.between (by decide) (by decide) (by decide) (fun rest => by cases rest <;> rfl)
    fun rest => by cases rest <;> rfl

/-- A comma and a space in front of a text. -/
theorem Spells.comma (hds : Spells ds D) :
    Spells (',' :: ' ' :: ds) (Led (fun t => t.kind = .mark .comma) D) :=
  hds.space.mark (by decide) (by decide) fun _ => rfl

/-! ## Operators -/

/-- The mark of an operator of two operands, which a space ends. -/
theorem exists_lexeme_symbol (op : BinaryOp) : ∃ c cs, op.symbol.toList = c :: cs ∧
    isSpace c = false ∧ c ≠ '#' ∧
      ∀ rest, lexeme c (cs ++ ' ' :: rest) = ⟨.mark op.mark, cs.length⟩ := by
  cases op <;> exact ⟨_, _, rfl, rfl, by decide, fun _ => rfl⟩

/-- An operator of two operands in front of a text, with spaces around it. -/
theorem Spells.operator (op : BinaryOp) (hds : Spells ds D) :
    Spells (' ' :: (op.symbol.toList ++ ' ' :: ds))
      (Led (fun t => t.kind = .mark op.mark) D) := by
  obtain ⟨c, cs, hsymbol, hspace, hcomment, hlex⟩ := exists_lexeme_symbol op
  rw [hsymbol]
  have hlex' : ∀ rest, EndsWord rest →
      lexeme c (cs ++ (' ' :: ds ++ rest)) = ⟨.mark op.mark, cs.length⟩ := by
    intro rest _
    rw [List.cons_append, hlex]
  refine (hds.space.token hspace hcomment hlex' fun t hkind _ =>
    Token.sound_of_mark hkind).space.mono ?_
  rintro _ ⟨t, us, rfl, ⟨hkind, -⟩, hD⟩
  exact ⟨t, us, rfl, hkind, hD⟩

/-- How a prefix operator is written. -/
def UnaryOp.sign : UnaryOp → Char
  | not => '!'
  | neg => '-'

/-- The mark of a prefix operator, which an equals sign would make longer. -/
theorem lexeme_sign (op : UnaryOp) : isSpace op.sign = false ∧ op.sign ≠ '#' ∧
    ∀ c rest, c ≠ '=' → lexeme op.sign (c :: rest) = ⟨.mark op.mark, 0⟩ := by
  cases op with
  | not =>
    refine ⟨by decide, by decide, fun c rest hc => ?_⟩
    have hpair : Mark.ofPair? '!' c = none := by
      simp [Mark.ofPair?, hc]
    have hmark : markLexeme? '!' (c :: rest) = some ⟨.mark .bang, 0⟩ := by
      rw [markLexeme?, List.head?_cons, Option.bind_some, hpair]
      rfl
    show (markLexeme? '!' (c :: rest)).getD _ = _
    rw [hmark, Option.getD_some]
    rfl
  | neg => exact ⟨by decide, by decide, fun _ _ _ => rfl⟩

/-- A prefix operator in front of a text. -/
theorem Spells.sign {c : Char} (op : UnaryOp) (hc : c ≠ '=') (hds : Spells (c :: ds) D) :
    Spells (op.sign :: c :: ds) (Led (fun t => t.kind = .mark op.mark) D) := by
  obtain ⟨hspace, hcomment, hlex⟩ := lexeme_sign op
  exact hds.mark hspace hcomment fun rest => hlex c (ds ++ rest) hc

/-! ## Words and numbers -/

/-- A word is read up to its end and no further. -/
theorem takeWhile_append_endsWord {word rest : List Char} (hword : word.all isWordChar = true)
    (hrest : EndsWord rest) : (word ++ rest).takeWhile isWordChar = word := by
  rw [List.takeWhile_append_of_pos (List.all_eq_true.mp hword), hrest, List.append_nil]

theorem sound_of_wordKind {t : Token} {word : List Char} (h : t.kind = wordKind word) :
    t.Sound := by
  refine ⟨Token.fits_of_kind_ne (h ▸ wordKind_ne_int word), ?_⟩
  rw [h, wordKind]
  split <;> rfl

/-- A word spells one token, a keyword or a name. -/
theorem spells_word {word : List Char} (h : Word word) : Spells word fun ts => ∃ t, ts = [t] ∧
    t.kind = wordKind word ∧ t.text = String.ofList word := by
  obtain ⟨c, cs, rfl, hstart, hchars⟩ := h
  obtain ⟨hspace, hcomment⟩ := not_space_of_wordStart hstart
  refine spells_token hspace hcomment (fun rest hrest => ?_)
    fun t hkind _ => sound_of_wordKind hkind
  simp only [lexeme, hstart, takeWhile_append_endsWord hchars hrest, if_true]

/-- A word in front of a text that does not go on with it. -/
theorem Spells.word {word : List Char} {d : Char} (h : Word word) (hd : isWordChar d = false)
    (hds : Spells (d :: ds) D) : Spells (word ++ d :: ds)
      (Led (fun t => t.kind = wordKind word ∧ t.text = String.ofList word) D) := by
  refine ((spells_word h).append hd hds).mono ?_
  rintro _ ⟨_, us, rfl, ⟨t, rfl, hword⟩, hD⟩
  exact ⟨t, us, rfl, hword, hD⟩

theorem not_space_of_isDigit {c : Char} (h : Text.isDigit c = true) :
    isSpace c = false ∧ c ≠ '#' ∧ isWordStart c = false := by
  obtain ⟨hlow, hhigh⟩ := Bool.and_eq_true_iff.mp h
  replace hlow : 48 ≤ c.val.toNat := UInt32.le_iff_toNat_le.mp (of_decide_eq_true hlow)
  replace hhigh : c.val.toNat ≤ 57 := UInt32.le_iff_toNat_le.mp (of_decide_eq_true hhigh)
  have hne : ∀ d : Char, d.val.toNat < 48 ∨ 57 < d.val.toNat → c ≠ d := by
    rintro d hd rfl
    omega
  have hnot : ∀ d : Char, 57 < d.val.toNat → decide (d ≤ c) = false := by
    intro d hd
    rw [decide_eq_false_iff_not, Char.le_def, UInt32.le_iff_toNat_le]
    omega
  refine ⟨?_, hne '#' (by decide), ?_⟩
  · simp [isSpace, hne]
  · simp [isWordStart, hnot, hne]

/-- A run of digits is an integer. -/
theorem spells_digits (h : Digits cs) (hfits : (Text.readInt64? cs).isSome = true) :
    Spells cs fun ts => ∃ t, ts = [t] ∧ t.kind = .int ∧ t.text = String.ofList cs := by
  obtain ⟨hne, hall⟩ := h
  cases cs with
  | nil => exact absurd rfl hne
  | cons c cs =>
    have hdigits := List.all_eq_true.mp hall
    have hdigit := hdigits c List.mem_cons_self
    have hchars : cs.all isWordChar = true := List.all_eq_true.mpr fun d hd => by
      rw [isWordChar, hdigits d (List.mem_cons_of_mem c hd), Bool.or_true]
    obtain ⟨hspace, hcomment, hstart⟩ := not_space_of_isDigit hdigit
    refine spells_token hspace hcomment (fun rest hrest => ?_)
      fun t hkind htext => ⟨fun _ => ?_, ?_⟩
    · simp only [lexeme, hstart, hdigit, takeWhile_append_endsWord hchars hrest, if_true,
        Bool.false_eq_true, if_false, numberKind, hall]
    · rw [htext, String.toList_ofList]
      exact hfits
    · rw [hkind]
      rfl

/-! ## Strings -/

/-- A string is read up to the quote that closes it: those inside are escaped. -/
theorem stringLength_quotedBody (rest : List Char) : ∀ s : List Char,
    stringLength (Text.quotedBody s ++ '"' :: rest) = ((Text.quotedBody s).length + 1, true)
  | [] => rfl
  | c :: s => by
    have hrest := stringLength_quotedBody rest s
    rw [Text.quotedBody_cons, List.append_assoc]
    rcases Text.quoteChar_escapeChar c with ⟨heq, hc⟩ | ⟨d, hd, heq, -⟩
    · simp only [List.mem_cons, List.not_mem_nil, or_false, not_or] at hc
      obtain ⟨hback, -, hline, -, hquote⟩ := hc
      rw [heq, List.singleton_append, stringLength_cons hback hline hquote, hrest]
      rfl
    · have hline : d ≠ '\n' := by
        rintro rfl
        exact absurd hd (by decide)
      rw [heq, List.cons_append, List.singleton_append, stringLength, if_neg hline, hrest]
      simp

/-- The token that starts at the quote in front of a text ends with the one behind it. -/
theorem lexeme_quoted (s rest : List Char) : lexeme '"' (Text.quotedBody s ++ ['"'] ++ rest) =
    ⟨.str, (Text.quotedBody s ++ ['"']).length⟩ := by
  have hlexeme : ∀ cs, lexeme '"' cs =
      ⟨if (stringLength cs).2 then .str else .malformed .unterminatedString, (stringLength cs).1⟩ :=
    fun _ => rfl
  rw [hlexeme, List.append_assoc, List.singleton_append, stringLength_quotedBody,
    List.length_append]
  rfl

/-- A text in quotes is one token, whatever the text is. -/
theorem spells_quoted (s : List Char) : Spells (Text.quoted s) fun ts => ∃ t, ts = [t] ∧
    t.kind = .str ∧ t.text = String.ofList (Text.quoted s) := by
  refine spells_token (by decide) (by decide) (fun rest _ => lexeme_quoted s rest)
    fun t hkind _ => ⟨?_, ?_⟩
  · exact Token.fits_of_kind_ne (by simp [hkind])
  · rw [hkind]
    rfl

/-- A text in quotes is read as the text. -/
theorem Token.strExpr_of_quoted {t : Token} {s : String}
    (h : t.text = String.ofList (Text.quoted s.toList)) : t.strExpr = .str s t.span := by
  have hbody : stringBody t = Text.quotedBody s.toList := by
    rw [stringBody, h, String.toList_ofList, Text.quoted, List.cons_append, List.drop_one,
      List.tail_cons, List.dropLast_concat]
  rw [Token.strExpr, hbody, Text.decodeEscapes_quotedBody, String.ofList_toList]

end LineQuery.Syntax
