import LineQuery.Pool.Command
import Mathlib.Data.List.Basic

/-! # Argument strings

A string of arguments is read from the left, and a blank outside quotes is where the reader is as at
the start: what has been read before it is done, and nothing is left of it that the arguments behind
it depend on. So two strings with a blank between them have the arguments of both, and every list of
arguments can be written, each of them in any of three styles.
-/

namespace LineQuery.Pool

open LineQuery.Text (isBlank)

/-! ## Single steps -/

section Steps

variable (arg : Option (List Char)) (cs : List Char) {c : Char}

theorem ne_of_isBlank {d : Char} (hc : isBlank c = true) (hd : isBlank d = false) : c ≠ d := by
  rintro rfl
  rw [hc] at hd
  exact absurd hd (by decide)

theorem extend_extend (front back : List Char) :
    extend (extend arg front) back = extend arg (front ++ back) := by
  simp [extend]

/-- A part of no characters adds nothing to an argument that there is. -/
theorem extend_nil (front : List Char) : extend (extend arg front) [] = extend arg front := by
  rw [extend_extend, List.append_nil]

/-- Outside quotes a character other than a backslash ends an argument, opens quotes, or goes on with
the argument. -/
theorem splitArgsFrom_plain (hslash : c ≠ '\\') : splitArgsFrom .plain arg (c :: cs) =
    if isBlank c then (splitArgsFrom .plain none cs).map ((arg.map List.reverse).toList ++ ·)
    else if c = '\'' then splitArgsFrom .single (extend arg []) cs
    else if c = '"' then splitArgsFrom .double (extend arg []) cs
    else splitArgsFrom .plain (extend arg [c]) cs := by
  rw [splitArgsFrom.eq_def]
  split
  case h_8 arg _ _ _ _ _ _ _ heq =>
    obtain ⟨rfl, rfl⟩ := List.cons.inj heq
    rw [if_neg hslash]
    cases arg with
    | none => cases splitArgsFrom .plain none cs <;> rfl
    | some front => rfl
  case h_7 heq => exact absurd (List.cons.inj heq).1 hslash
  all_goals contradiction

/-- A blank ends the argument in front of it, if there is one. -/
theorem splitArgsFrom_blank (hc : isBlank c = true) : splitArgsFrom .plain arg (c :: cs) =
    (splitArgsFrom .plain none cs).map ((arg.map List.reverse).toList ++ ·) := by
  rw [splitArgsFrom_plain arg cs (ne_of_isBlank hc (by decide)), if_pos hc]

theorem splitArgsFrom_openSingle : splitArgsFrom .plain arg ('\'' :: cs) =
    splitArgsFrom .single (extend arg []) cs := by
  cases arg <;> rfl

theorem splitArgsFrom_openDouble : splitArgsFrom .plain arg ('"' :: cs) =
    splitArgsFrom .double (extend arg []) cs := by
  cases arg <;> rfl

theorem splitArgsFrom_backslash (c : Char) : splitArgsFrom .plain arg ('\\' :: c :: cs) =
    splitArgsFrom .plain (extend arg [c]) cs := rfl

theorem splitArgsFrom_other (hblank : ¬isBlank c = true) (hsingle : c ≠ '\'') (hdouble : c ≠ '"')
    (hslash : c ≠ '\\') : splitArgsFrom .plain arg (c :: cs) =
      splitArgsFrom .plain (extend arg [c]) cs := by
  rw [splitArgsFrom_plain arg cs hslash, if_neg hblank, if_neg hsingle, if_neg hdouble]

theorem splitArgsFrom_closeSingle : splitArgsFrom .single arg ('\'' :: cs) =
    splitArgsFrom .plain arg cs := rfl

theorem splitArgsFrom_inSingle (hc : c ≠ '\'') : splitArgsFrom .single arg (c :: cs) =
    splitArgsFrom .single (extend arg [c]) cs :=
  if_neg hc

theorem splitArgsFrom_closeDouble : splitArgsFrom .double arg ('"' :: cs) =
    splitArgsFrom .plain arg cs := rfl

/-- Between double quotes a backslash escapes a quote and a backslash, and else stands for itself.
-/
theorem splitArgsFrom_escape (c : Char) : splitArgsFrom .double arg ('\\' :: c :: cs) =
    splitArgsFrom .double (extend arg (if c = '"' ∨ c = '\\' then [c] else ['\\', c])) cs := rfl

theorem splitArgsFrom_inDouble (hquote : c ≠ '"') (hslash : c ≠ '\\') :
    splitArgsFrom .double arg (c :: cs) = splitArgsFrom .double (extend arg [c]) cs := by
  rw [splitArgsFrom.eq_def]
  split
  case h_6 heq =>
    obtain ⟨rfl, rfl⟩ := List.cons.inj heq
    rw [if_neg hquote, if_neg hslash]
  case h_5 heq => exact absurd (List.cons.inj heq).1 hslash
  all_goals contradiction

end Steps

/-! ## Two strings in one -/

/-- A blank behind arguments that are complete: those behind it are read as if they stood alone. -/
theorem splitArgsFrom_append_blank {w : Char} (hw : isBlank w = true) (b : List Char)
    (quoting : Quoting) (arg : Option (List Char)) (a : List Char) :
    ∀ {xs : List (List Char)}, splitArgsFrom quoting arg a = .ok xs →
      splitArgsFrom quoting arg (a ++ w :: b) = (splitArgsFrom .plain none b).map (xs ++ ·) := by
  -- The induction is on the reader of `a`, in any quotes and within any argument: where it comes to
  -- the end without an error it is outside of quotes, and the blank ends the argument.
  fun_induction splitArgsFrom quoting arg a with
  | case1 arg =>
    rintro _ ⟨⟩
    exact splitArgsFrom_blank arg b hw
  | case2 | case3 => exact nofun
  | case4 arg cs ih =>
    intro xs h
    rw [List.cons_append, splitArgsFrom_closeSingle]
    exact ih h
  | case5 arg c cs hc ih =>
    intro xs h
    rw [List.cons_append, splitArgsFrom_inSingle _ _ hc]
    exact ih h
  | case6 arg c cs ih =>
    intro xs h
    rw [List.cons_append, List.cons_append, splitArgsFrom_escape]
    exact ih h
  | case7 arg cs _ ih =>
    intro xs h
    rw [List.cons_append, splitArgsFrom_closeDouble]
    exact ih h
  | case8 => exact nofun
  | case9 arg c cs _ hquote hslash ih =>
    intro xs h
    rw [List.cons_append, splitArgsFrom_inDouble _ _ hquote hslash]
    exact ih h
  | case10 arg c cs ih =>
    intro xs h
    rw [List.cons_append, List.cons_append, splitArgsFrom_backslash]
    exact ih h
  | case11 c cs _ hblank arg ih =>
    -- An argument is done within `a`, and comes in front of the others.
    intro xs h
    cases hys : splitArgsFrom .plain none cs with
    | error e =>
      rw [hys] at h
      exact nomatch h
    | ok ys =>
      rw [hys] at h
      obtain rfl := Except.ok.inj h
      rw [List.cons_append, splitArgsFrom_blank _ _ hblank, ih hys]
      cases splitArgsFrom .plain none b <;> rfl
  | case12 c cs _ hblank ih =>
    intro xs h
    rw [List.cons_append, splitArgsFrom_blank _ _ hblank, ih h]
    cases splitArgsFrom .plain none b <;> rfl
  | case13 arg cs _ _ ih =>
    intro xs h
    rw [List.cons_append, splitArgsFrom_openSingle]
    exact ih h
  | case14 arg cs _ _ _ ih =>
    intro xs h
    rw [List.cons_append, splitArgsFrom_openDouble]
    exact ih h
  | case15 => exact nofun
  | case16 arg c cs _ hblank hsingle hdouble hslash ih =>
    intro xs h
    rw [List.cons_append, splitArgsFrom_other _ _ hblank hsingle hdouble hslash]
    exact ih h

/-- A blank behind whole arguments ends the last of them. -/
theorem splitArgs_append_blank {a : String} {w : Char} {xs : List String}
    (ha : splitArgs a = .ok xs) (hw : isBlank w = true) (b : String) :
    splitArgs (a ++ String.singleton w ++ b) = (splitArgs b).map (xs ++ ·) := by
  have htext : (a ++ String.singleton w ++ b).toList = a.toList ++ w :: b.toList := by
    simp
  unfold splitArgs at ha ⊢
  cases hread : splitArgsFrom .plain none a.toList with
  | error e =>
    rw [hread] at ha
    exact nomatch ha
  | ok args =>
    rw [hread] at ha
    obtain rfl := Except.ok.inj ha
    rw [htext, splitArgsFrom_append_blank hw b.toList .plain none a.toList hread]
    cases splitArgsFrom .plain none b.toList with
    | error e => rfl
    | ok later => exact congrArg Except.ok List.map_append

/-- Behind arguments and a blank any string is read as it is alone: its arguments come behind the
others, and if they cannot be read, it is for the same error. -/
theorem splitArgs_across_blank {a : String} {w : Char} {xs : List String}
    (ha : splitArgs a = .ok xs) (hw : isBlank w = true) (b : String) :
    (∀ ys, splitArgs b = .ok ys → splitArgs (a ++ String.singleton w ++ b) = .ok (xs ++ ys)) ∧
    (∀ e, splitArgs b = .error e → splitArgs (a ++ String.singleton w ++ b) = .error e) := by
  rw [splitArgs_append_blank ha hw b]
  constructor
  · intro ys hb
    rw [hb]
    rfl
  · intro e hb
    rw [hb]
    rfl

/-- Quotes that are closed in front of the blank leave nothing open behind it. -/
theorem splitArgs_across_blank_of_quotes :
    splitArgs "-c 'it''s' \"\"" = .ok ["-c", "its", ""] ∧ isBlank '\t' = true ∧
    splitArgs ("-c 'it''s' \"\"" ++ String.singleton '\t' ++ "x\\ y") =
      .ok ["-c", "its", "", "x y"] ∧
    splitArgs ("-c 'it''s' \"\"" ++ String.singleton '\t' ++ "x 'y") =
      .error (.unterminatedQuote '\'') := by
  have ha : splitArgs "-c 'it''s' \"\"" = .ok ["-c", "its", ""] := by rfl
  have hw : isBlank '\t' = true := by rfl
  exact ⟨ha, hw, (splitArgs_across_blank ha hw "x\\ y").1 ["x y"] (by rfl),
    (splitArgs_across_blank ha hw "x 'y").2 _ (by rfl)⟩

/-! ## Writing arguments -/

/-- How an argument is written: in quotes of either kind, or with a backslash in front of each of
its characters. -/
inductive Style where
  | single
  | double
  | escaped
deriving DecidableEq, Repr

/-- A character between single quotes, which a quote cannot be: they end in front of it and start
again behind it. -/
def singleQuoted (c : Char) : List Char :=
  if c = '\'' then ['\'', '\\', '\'', '\''] else [c]

/-- A character between double quotes. -/
def doubleQuoted (c : Char) : List Char :=
  if c = '"' ∨ c = '\\' then ['\\', c] else [c]

/-- A character behind a backslash. -/
def backslashed (c : Char) : List Char :=
  ['\\', c]

/-- A text as it is written in a style. -/
def Style.write : Style → List Char → List Char
  | .single, cs => '\'' :: (cs.flatMap singleQuoted ++ ['\''])
  | .double, cs => '"' :: (cs.flatMap doubleQuoted ++ ['"'])
  | .escaped, cs => cs.flatMap backslashed

/-- An argument and a style for it. An argument without characters needs quotes to be seen. -/
structure Spelling where
  arg : String
  style : Style
  quoted : arg = "" → style ≠ .escaped

/-- An argument as it is written. -/
def Spelling.chars (s : Spelling) : List Char :=
  s.style.write s.arg.toList

/-- Blanks around arguments. -/
structure Blanks where
  chars : List Char
  blank : ∀ c ∈ chars, isBlank c = true

/-- Blanks between two arguments. -/
structure Gap extends Blanks where
  ne_nil : chars ≠ []

/-- Arguments one behind the other, the first gap behind the first of them, and so on. -/
def writeArgs (gaps : Nat → Gap) : List Spelling → List Char
  | [] => []
  | [last] => last.chars
  | first :: next :: rest =>
    first.chars ++ ((gaps 0).chars ++ writeArgs (fun i => gaps (i + 1)) (next :: rest))

/-! ## Reading what is written -/

/-- A text is read character by character if each character is. -/
theorem splitArgsFrom_flatMap {quoting : Quoting} {write : Char → List Char}
    (hwrite : ∀ arg c rest, splitArgsFrom quoting (extend arg []) (write c ++ rest) =
      splitArgsFrom quoting (extend arg [c]) rest) (rest : List Char) :
    ∀ (cs : List Char) (arg : Option (List Char)),
      splitArgsFrom quoting (extend arg []) (cs.flatMap write ++ rest) =
        splitArgsFrom quoting (extend arg cs) rest
  | [], arg => rfl
  | c :: cs, arg => by
    rw [List.flatMap_cons, List.append_assoc, hwrite, ← extend_nil,
      splitArgsFrom_flatMap hwrite rest cs, extend_extend, List.singleton_append]

/-- A character between single quotes is read as itself, a single quote by leaving them. -/
theorem splitArgsFrom_singleQuoted (arg : Option (List Char)) (c : Char) (rest : List Char) :
    splitArgsFrom .single (extend arg []) (singleQuoted c ++ rest) =
      splitArgsFrom .single (extend arg [c]) rest := by
  unfold singleQuoted
  split
  · rename_i hc
    -- The quote itself stands outside of quotes, behind a backslash.
    show splitArgsFrom .single _ ('\'' :: '\\' :: '\'' :: '\'' :: rest) = _
    rw [splitArgsFrom_closeSingle, splitArgsFrom_backslash, splitArgsFrom_openSingle,
      extend_extend, extend_extend, hc]
    rfl
  · rename_i hc
    rw [List.singleton_append, splitArgsFrom_inSingle _ _ hc, extend_extend]
    rfl

/-- A character between double quotes is read as itself. -/
theorem splitArgsFrom_doubleQuoted (arg : Option (List Char)) (c : Char) (rest : List Char) :
    splitArgsFrom .double (extend arg []) (doubleQuoted c ++ rest) =
      splitArgsFrom .double (extend arg [c]) rest := by
  unfold doubleQuoted
  split
  · rename_i hc
    show splitArgsFrom .double _ ('\\' :: c :: rest) = _
    rw [splitArgsFrom_escape, if_pos hc, extend_extend]
    rfl
  · rename_i hc
    rw [not_or] at hc
    rw [List.singleton_append, splitArgsFrom_inDouble _ _ hc.1 hc.2, extend_extend]
    rfl

/-- A character behind a backslash is read as itself. -/
theorem splitArgsFrom_backslashed (arg : Option (List Char)) (c : Char) (rest : List Char) :
    splitArgsFrom .plain (extend arg []) (backslashed c ++ rest) =
      splitArgsFrom .plain (extend arg [c]) rest := by
  show splitArgsFrom .plain _ ('\\' :: c :: rest) = _
  rw [splitArgsFrom_backslash, extend_extend]
  rfl

/-- In each style what is written is read as a part of an argument. -/
theorem splitArgsFrom_write {style : Style} {cs : List Char} (h : cs = [] → style ≠ .escaped)
    (arg : Option (List Char)) (rest : List Char) :
    splitArgsFrom .plain arg (style.write cs ++ rest) =
      splitArgsFrom .plain (extend arg cs) rest := by
  cases style with
  | single =>
    rw [Style.write, List.cons_append, List.append_assoc, splitArgsFrom_openSingle,
      splitArgsFrom_flatMap splitArgsFrom_singleQuoted]
    exact splitArgsFrom_closeSingle _ rest
  | double =>
    rw [Style.write, List.cons_append, List.append_assoc, splitArgsFrom_openDouble,
      splitArgsFrom_flatMap splitArgsFrom_doubleQuoted]
    exact splitArgsFrom_closeDouble _ rest
  | escaped =>
    cases cs with
    | nil => exact absurd rfl (h rfl)
    | cons c cs =>
      -- Without quotes it is the first character that there is an argument from.
      rw [Style.write, List.flatMap_cons, List.append_assoc]
      show splitArgsFrom .plain arg ('\\' :: c :: (cs.flatMap backslashed ++ rest)) = _
      rw [splitArgsFrom_backslash, ← extend_nil, splitArgsFrom_flatMap splitArgsFrom_backslashed,
        extend_extend]
      rfl

/-- An argument as it is written is read as that argument. -/
theorem splitArgsFrom_chars (s : Spelling) :
    splitArgsFrom .plain none s.chars = .ok [s.arg.toList] := by
  have hquoted : s.arg.toList = [] → s.style ≠ .escaped := by
    intro h
    exact s.quoted (String.toList_eq_nil_iff.mp h)
  have hread := splitArgsFrom_write hquoted none []
  rw [List.append_nil] at hread
  rw [Spelling.chars, hread]
  simp [extend, splitArgsFrom.eq_def]

/-- Blanks in front of arguments are none of them. -/
theorem splitArgsFrom_blanks : ∀ {blanks : List Char}, (∀ c ∈ blanks, isBlank c = true) →
    ∀ cs : List Char, splitArgsFrom .plain none (blanks ++ cs) = splitArgsFrom .plain none cs
  | [], _, _ => rfl
  | c :: blanks, h, cs => by
    obtain ⟨hc, hblanks⟩ := List.forall_mem_cons.mp h
    rw [List.cons_append, splitArgsFrom_blank _ _ hc, splitArgsFrom_blanks hblanks cs]
    cases splitArgsFrom .plain none cs <;> rfl

/-- An argument in front of blanks is read before what is behind them. -/
theorem splitArgsFrom_chars_append (s : Spelling) {blanks : List Char} (hne : blanks ≠ [])
    (hblank : ∀ c ∈ blanks, isBlank c = true) (cs : List Char) :
    splitArgsFrom .plain none (s.chars ++ (blanks ++ cs)) =
      (splitArgsFrom .plain none cs).map (s.arg.toList :: ·) := by
  obtain ⟨c, more, rfl⟩ := List.exists_cons_of_ne_nil hne
  obtain ⟨hc, hmore⟩ := List.forall_mem_cons.mp hblank
  rw [List.cons_append, splitArgsFrom_append_blank hc _ _ _ _ (splitArgsFrom_chars s),
    splitArgsFrom_blanks hmore]
  rfl

/-- Arguments that are written in any style, with any blanks around them, are read one after
another. -/
theorem splitArgsFrom_writeArgs (trail : Blanks) : ∀ (args : List Spelling) (gaps : Nat → Gap),
    splitArgsFrom .plain none (writeArgs gaps args ++ trail.chars) =
      .ok (args.map fun s => s.arg.toList)
  | [], _ => by
    have hnone := splitArgsFrom_blanks trail.blank []
    rw [List.append_nil] at hnone
    exact hnone
  | [last], _ => by
    rw [writeArgs]
    rcases eq_or_ne trail.chars [] with htrail | htrail
    · rw [htrail, List.append_nil, splitArgsFrom_chars]
      rfl
    · have hlast := splitArgsFrom_chars_append last htrail trail.blank []
      rw [List.append_nil] at hlast
      exact hlast
  | first :: next :: rest, gaps => by
    rw [writeArgs, List.append_assoc, List.append_assoc,
      splitArgsFrom_chars_append first (gaps 0).ne_nil (gaps 0).blank,
      splitArgsFrom_writeArgs trail (next :: rest)]
    rfl

/-- Every list of arguments can be written, each in any style, with any blanks between them and
around them. -/
theorem splitArgs_writeArgs (lead trail : Blanks) (gaps : Nat → Gap) (args : List Spelling) :
    splitArgs (String.ofList (lead.chars ++ writeArgs gaps args ++ trail.chars)) =
      .ok (args.map Spelling.arg) := by
  unfold splitArgs
  rw [String.toList_ofList, List.append_assoc, splitArgsFrom_blanks lead.blank,
    splitArgsFrom_writeArgs]
  simp [Except.map]

/-- A quote, a backslash and a blank in each of the styles, and an argument without characters. -/
example : splitArgs "'it'\\''s \\'\t\"\\\"\\\\ \" \\'\\\\\\   ''" =
    .ok ["it's \\", "\"\\ ", "'\\ ", ""] := by rfl

end LineQuery.Pool
