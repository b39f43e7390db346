import LineQuery.Proofs.Grammar.FindingPlaces
import LineQuery.Proofs.Grammar.Tiling
import LineQuery.Proofs.Plans.Constants
import LineQuery.Proofs.Plans.ErrorPlaces
import LineQuery.Proofs.Runs.Selecting
import LineQuery.Proofs.Script.BodyTokens
import LineQuery.Proofs.Script.Pieces
import Mathlib.Data.List.Pairwise

/-! # Literals

Any string can be written as a literal: in quotes, with its quotes, backslashes, tabs and line ends
escaped. The literal has no line end in it, so it stays in one line of the body. If it stands
neither in a comment nor in another string, a token starts where it does, ends where it does, and is
read as the string.
-/

namespace LineQuery

open LineQuery.Syntax
open LineQuery.Text (byteLength byteLength_append encodeUtf8 lineChars lineSoFar quoted)

/-- Whether two spans have a byte in common. -/
def Span.Meets (a b : Span) : Prop :=
  a.start < b.stop ∧ b.start < a.stop

namespace Syntax

/-! ## The token of a literal -/

/-- The token of a string that is written as a literal from byte `start`. -/
def Token.literal (s : String) (start : Nat) : Token :=
  ⟨.str, String.ofList (quoted s.toList), ⟨start, start + byteLength (quoted s.toList)⟩⟩

/-- A literal stands for the string that it was written for. -/
theorem Token.strExpr_literal (s : String) (start : Nat) :
    (Token.literal s start).strExpr = .str s (Token.literal s start).span :=
  Token.strExpr_of_quoted rfl

variable {text : String} {s : String} {t u : Token}

/-- A token that starts where a literal does is the token of the literal, whatever stands behind. -/
theorem eq_literal {before rest : List Char} (ht : t ∈ tokens text)
    (htext : text.toList = before ++ (quoted s.toList ++ rest))
    (hstart : t.span.start = byteLength before) : t = .literal s t.span.start := by
  obtain ⟨before', c, rest', hcut, hstands⟩ := exists_stands ht
  have hsize : byteLength before = byteLength before' := by
    rw [← hstart, hstands.start, Nat.zero_add]
  -- the token is cut from the literal and what stands behind it
  obtain ⟨-, hquoted⟩ := Text.append_inj_of_byteLength (htext.symm.trans hcut) hsize
  rw [quoted, List.cons_append, List.cons_append] at hquoted
  obtain ⟨rfl, rfl⟩ := List.cons.inj hquoted
  have hlexeme := lexeme_quoted s.toList rest
  have hkind : t.kind = .str := by rw [hstands.kind, hlexeme]
  have hchars : t.text.toList = quoted s.toList := by
    rw [hstands.text, hlexeme, List.take_left]
    rfl
  obtain ⟨kind, word, span⟩ := t
  obtain rfl : kind = .str := hkind
  rw [Token.literal, ← hchars, String.ofList_toList]
  exact congrArg (Token.mk .str word) (congrArg (Span.mk span.start) hstands.stop)

/-- Tokens that have a byte in common are the same. -/
theorem eq_of_meets (ht : t ∈ tokens text) (hu : u ∈ tokens text) (h : t.span.Meets u.span) :
    t = u := by
  have hsymm : Std.Symm fun t u : Token => ¬ t.span.Meets u.span :=
    ⟨fun _ _ hnot hmeets => hnot ⟨hmeets.2, hmeets.1⟩⟩
  have hpairs : (tokens text).Pairwise fun t u => ¬ t.span.Meets u.span :=
    (tiles_scanFrom text.toList 0).apart.imp fun hle hmeets => absurd hmeets.2 (Nat.not_lt.mpr hle)
  by_contra hne
  exact hpairs.forall ht hu hne h

/-- What is found about a string is that it is misplaced. -/
theorem saysMisplaced_of_meets {f : Finding} (ht : t ∈ tokens text) (hkind : t.kind = .str)
    (hf : f ∈ (parse text).2) (h : f.span.Meets t.span) : SaysMisplaced f.code f.message := by
  rcases found_of_parse hf with ⟨u, hu, hspan, hstr⟩ | hspan
  · obtain rfl := eq_of_meets hu ht (hspan ▸ h)
    exact hstr hkind
  · -- what is found at the end of the text is behind all tokens
    have hstop := stop_le_of_token ht
    rw [hspan, Text.utf8ByteSize_eq] at h
    exact absurd h.1 (Nat.not_lt.mpr hstop)

/-- A string is an operand. -/
theorem out_parsePrimary_str {c : Cursor} {rest : List Token} (h : c.ahead = t :: rest)
    (hkind : t.kind = .str) : (parsePrimary c).out = (t.strExpr, c.past t rest) := by
  rw [out_parsePrimary_of_none h (by rw [hkind]; rfl), hkind]
  rfl

end Syntax

open Program (Part ofParts)

namespace Program

/-! ## Literals in programs -/

/-- A program reads the literal of a string that starts at byte `start`. -/
structure ReadsLiteral (p : Program) (s : String) (start : Nat) : Prop where
  /-- The literal is a token, as a whole. -/
  token : Token.literal s start ∈ tokens p.text
  /-- No other token has a byte of the literal. -/
  alone : ∀ t ∈ tokens p.text, t.span.Meets (Token.literal s start).span → t = .literal s start
  /-- Whatever is found about the literal is that something other than an expression is expected
  there. -/
  findings : ∀ f ∈ (parse p.text).2, f.span.Meets (Token.literal s start).span →
    SaysMisplaced f.code f.message
  /-- Where an operand is read, the string is, and nothing is reported. -/
  operand {c : Cursor} {rest : List Token} : c.ahead = .literal s start :: rest →
    (parsePrimary c).out = (.str s (Token.literal s start).span, c.past (.literal s start) rest)
  /-- If the program compiles, the string is a part of an entry, and a constant of its plan. -/
  constant {c : Compilation} : compile p = .ok c →
    ∃ source ∈ (parse p.text).1.entries, ∃ entry ∈ c.artifact.entries,
      LowersEntry p.context source entry ∧
      .str s (Token.literal s start).span ∈ source.parts ∧
      .const (.str s) (p.context.userPosition (Token.literal s start).span) ∈ entry.plan.parts

variable {p : Program} {s : String} {start k : Nat}

theorem ReadsLiteral.of_token (h : Token.literal s start ∈ tokens p.text) :
    p.ReadsLiteral s start where
  token := h
  alone t ht hmeets := eq_of_meets ht h hmeets
  findings f hf hmeets := saysMisplaced_of_meets h rfl hf hmeets
  operand hahead := by rw [out_parsePrimary_str hahead rfl, Token.strExpr_literal]
  constant hok := by
    obtain ⟨source, hsource, entry, hentry, hlowers, hpart, hnode⟩ :=
      (compiled_of_ok hok).exists_const h rfl
    obtain ⟨hvalue, -⟩ := Expr.str.inj (Token.strExpr_literal s start)
    rw [Token.strExpr_literal] at hpart
    rw [hvalue] at hnode
    exact ⟨source, hsource, entry, hentry, hlowers, hpart, hnode⟩

/-- A literal is read in a line of the body, if a token starts where it does. -/
theorem readsLiteral_of_line {front back : List Char}
    (hk : p.body[k]? = some (String.ofList (front ++ quoted s.toList ++ back)))
    (hstarts : StartsAt (tokens p.text) (p.bodyOffset k + byteLength front)) :
    p.ReadsLiteral s (p.bodyOffset k + byteLength front) := by
  obtain ⟨t, ht, hstart⟩ := hstarts
  have htext : p.text.toList = lineChars (p.linesBefore k) ++ front ++ (quoted s.toList ++
      (back ++ '\n' :: lineChars (p.body.drop (k + 1) ++ ["\x7d"]))) := by
    rw [toList_text, textLines_eq hk, Text.lineChars_append, Text.lineChars_cons]
    simp [String.toList_ofList]
  have hplace : t.span.start = byteLength (lineChars (p.linesBefore k) ++ front) := by
    rw [← hstart, byteLength_append, bodyOffset_eq]
  have hliteral := eq_literal ht htext hplace
  rw [← hstart] at hliteral
  exact .of_token (hliteral ▸ ht)

/-- A literal in a line of the body is shown there. -/
theorem Lined.userPosition_literal {front back : List Char} (hp : p.Lined)
    (hk : p.body[k]? = some (String.ofList (front ++ quoted s.toList ++ back))) :
    p.context.userPosition (Token.literal s (p.bodyOffset k + byteLength front)).span =
      ⟨k + 1, byteLength front + 1⟩ := by
  refine hp.userPosition_of_body hk rfl ?_
  rw [Text.length_encodeUtf8, String.toList_ofList, byteLength_append, byteLength_append]
  omega

end Program

/-- Any string can be written as a literal. Wherever the literal stands in a text, it stands as a
whole in one line of the body. It is read as the string if a token starts where it does and the text
of the program is shorter than a word of 32 bits can count, so that words pick the literal out of
it. So the query that selects it brings the string for each line. -/
theorem literals_read_back (s : String) :
    (∀ (before after : List Part) (pre post : List Char),
      let p := ofParts (before ++ .text (String.ofList (pre ++ quoted s.toList ++ post)) :: after)
      let k := (ofParts before).body.length + pre.count '\n'
      let front := lineSoFar '\n' pre
      let start := p.bodyOffset k + byteLength front
      (∃ back, back <+: post ∧
        p.body[k]? = some (String.ofList (front ++ quoted s.toList ++ back))) ∧
      ((encodeUtf8 p.text).length < UInt32.size →
        (StartsAt (tokens p.text) start →
          p.ReadsLiteral s start ∧ (Token.literal s start).PickedOut p.text) ∧
        ((∀ part ∈ before ++ after, part.Lined) →
          p.context.userPosition (Token.literal s start).span = ⟨k + 1, byteLength front + 1⟩))) ∧
    ((encodeUtf8 (Program.selecting (String.ofList (quoted s.toList))).text).length < UInt32.size →
      (Program.selecting (String.ofList (quoted s.toList))).Yields (.str s)) := by
  refine ⟨fun before after pre post => ?_, fun _ => ?_⟩
  · -- a literal ends with its quote, so no carriage return is cut off with the line end
    have hend : (quoted s.toList).getLast? ≠ some '\r' := by
      rw [quoted, List.getLast?_concat]
      decide
    obtain ⟨back, hback, hk⟩ := Program.exists_line_of_piece
      (Text.not_mem_quoted (by decide) s.toList) (List.cons_ne_nil _ _) hend before after pre post
    refine ⟨⟨back, hback, hk⟩, fun hsize => ⟨fun hstarts => ?_, fun hparts => ?_⟩⟩
    · have hreads := Program.readsLiteral_of_line hk hstarts
      exact ⟨hreads, pickedOut_of_token hsize hreads.token⟩
    -- the text itself may have any line ends
    have hlined : ∀ part ∈ before ++
        .text (String.ofList (pre ++ quoted s.toList ++ post)) :: after, part.Lined := by
      intro part hpart
      rcases List.mem_append.mp hpart with hbefore | hothers
      · exact hparts part (List.mem_append_left _ hbefore)
      · rcases List.mem_cons.mp hothers with rfl | hafter
        · trivial
        · exact hparts part (List.mem_append_right _ hafter)
    exact (Program.lined_ofParts hlined).userPosition_literal hk
  · exact Expr.yields_selecting (e := .str s nowhere) trivial ⟨rfl, List.forall_mem_nil _⟩
      (Expr.hasValue_str s nowhere)

/-- A string with all that is escaped in it, in the third line of a body. -/
theorem literals_read_back_third_line :
    let s := "é \"\\\" \r\n\t\\"
    let p := ofParts [.text "from l in lines",
      .text (String.ofList ("let x = 1\r\nwhere l != ".toList ++ quoted s.toList ++
        " + \"#\"\r\n".toList)), .library "tsv", .text "select x"]
    let q := Program.selecting (String.ofList (quoted s.toList))
    let start := p.bodyOffset 2 + 11
    (encodeUtf8 p.text).length < UInt32.size ∧ (encodeUtf8 q.text).length < UInt32.size ∧
      (StartsAt (tokens p.text) start ∧ p.ReadsLiteral s start) ∧ q.Yields (.str s) ∧
      ∃ c, compile p = .ok c ∧ ∃ entry ∈ c.artifact.entries,
        .const (.str s) ⟨3, 12⟩ ∈ entry.plan.parts := by
  intro s p q start
  have hsize : (encodeUtf8 p.text).length < UInt32.size := by decide +kernel
  have hsize' : (encodeUtf8 q.text).length < UInt32.size := by decide +kernel
  obtain ⟨hread, hyields⟩ := literals_read_back s
  obtain ⟨-, hshort⟩ := hread [.text "from l in lines"] [.library "tsv", .text "select x"]
    "let x = 1\r\nwhere l != ".toList " + \"#\"\r\n".toList
  obtain ⟨hreads, hplace⟩ := hshort hsize
  have hstarts : StartsAt (tokens p.text) start := by
    show ∃ t ∈ tokens p.text, start = t.span.start
    decide +kernel
  obtain ⟨hliteral, -⟩ : p.ReadsLiteral s start ∧ _ := hreads hstarts
  have hposition : p.context.userPosition (Token.literal s start).span = ⟨3, 12⟩ :=
    hplace (by decide)
  have hok : (compile p).toBool = true := by decide +kernel
  refine ⟨hsize, hsize', ⟨hstarts, hliteral⟩, hyields hsize', ?_⟩
  cases hcompile : compile p with
  | error diagnostics =>
    rw [hcompile] at hok
    cases hok
  | ok c =>
    obtain ⟨-, -, entry, hentry, -, -, hnode⟩ := hliteral.constant hcompile
    exact ⟨c, rfl, entry, hentry, hposition ▸ hnode⟩

end LineQuery
