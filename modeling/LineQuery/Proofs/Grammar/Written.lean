import LineQuery.Proofs.Grammar.FrontEnd
import LineQuery.Proofs.Grammar.Spelling

/-! # Written expressions

An expression is written with parentheses around an operand only if that binds less tightly than
its place asks for: the left operand of an operator may stand on the rung of the operator, the right
one has to stand on a higher one, the operand of a prefix operator has no operators of two operands
outside brackets, and what is indexed has no operators at all. What is written is read as the
expression again.
-/

namespace LineQuery.Syntax

open LineQuery.Text (encodeUtf8)

/-! ## Trees without places -/

/-- The span that stands for any. -/
def nowhere : Span := ⟨0, 0⟩

/-- The name without its place. -/
def Ident.unplaced (id : Ident) : Ident :=
  ⟨id.name, nowhere⟩

namespace Expr

mutual

/-- The tree without the places of its parts. -/
def unplaced : Expr → Expr
  | .int value _ => .int value nowhere
  | .str value _ => .str value nowhere
  | .bool value _ => .bool value nowhere
  | .name id => .name id.unplaced
  | .list items _ => .list (unplacedAll items) nowhere
  | .unary op operand _ => .unary op operand.unplaced nowhere
  | .binary op left right _ => .binary op left.unplaced right.unplaced nowhere
  | .index base position _ => .index base.unplaced position.unplaced nowhere
  | .call function args _ => .call function.unplaced (unplacedAll args) nowhere
  | .hole _ => .hole nowhere

def unplacedAll : List Expr → List Expr
  | [] => []
  | e :: es => e.unplaced :: unplacedAll es

end

/-! ## Writing -/

/-- How tightly an expression holds together: an operator of two operands by its rung on the ladder,
and tighter than all of these first the prefix operators, then whatever has no operator outside
brackets. -/
def tightness : Expr → Nat
  | .binary op _ _ _ => op.rank
  | .unary _ _ _ => BinaryOp.topRank + 1
  | _ => BinaryOp.topRank + 2

/-- An expression that is written as `cs`, in a place that asks for a tightness of `needed`. -/
def bracketed (needed : Nat) (e : Expr) (cs : List Char) : List Char :=
  if e.tightness < needed then '(' :: cs ++ [')'] else cs

mutual

/-- How an expression is written. A hole has no text. -/
def written : Expr → List Char
  | .int value _ => Text.showInt value.toInt
  | .str value _ => Text.quoted value.toList
  | .bool value _ => (if value then Keyword.trueWord else Keyword.falseWord).text.toList
  | .name id => id.name.toList
  | .list items _ => '[' :: writtenAll items ++ [']']
  | .unary op operand _ => op.sign :: operand.bracketed (BinaryOp.topRank + 1) operand.written
  | .binary op left right _ => left.bracketed op.rank left.written ++
      ' ' :: (op.symbol.toList ++ ' ' :: right.bracketed (op.rank + 1) right.written)
  | .index base position _ => base.bracketed (BinaryOp.topRank + 2) base.written ++
      ('[' :: position.written ++ [']'])
  | .call function args _ => function.name.toList ++ ('(' :: writtenAll args ++ [')'])
  | .hole _ => []

/-- Expressions with commas between them. -/
def writtenAll : List Expr → List Char
  | [] => []
  | [e] => e.written
  | e :: e' :: es => e.written ++ ',' :: ' ' :: writtenAll (e' :: es)

end

def text (e : Expr) : String :=
  String.ofList e.written

end Expr

/-- A name that can be written: a word that is no keyword. -/
def Ident.Writable (id : Ident) : Prop :=
  Word id.name.toList ∧ Keyword.ofText? id.name = none

namespace Expr

mutual

/-- An expression that can be written: its integers are not negative, its names are words, and it
has no holes. -/
def Writable : Expr → Prop
  | .int value _ => 0 ≤ value.toInt
  | .str _ _ | .bool _ _ => True
  | .name id => id.Writable
  | .list items _ => AllWritable items
  | .unary _ operand _ => operand.Writable
  | .binary _ left right _ => left.Writable ∧ right.Writable
  | .index base position _ => base.Writable ∧ position.Writable
  | .call function args _ => function.Writable ∧ AllWritable args
  | .hole _ => False

def AllWritable : List Expr → Prop
  | [] => True
  | e :: es => e.Writable ∧ AllWritable es

end

end Expr

/-! ## Deriving at a place -/

/-- Tokens that derive an expression in a place that asks for a tightness of `needed`. -/
def DerivesAt (needed : Nat) (ts : List Token) (e : Expr) : Prop :=
  if BinaryOp.topRank + 1 < needed then DerivesIndexed ts e
  else if BinaryOp.topRank < needed then DerivesOperand ts e
  else DerivesExpr (needed - 1) ts e

namespace DerivesAt

variable {needed : Nat} {ts : List Token} {e : Expr}

theorem of_indexed (h : DerivesIndexed ts e) : DerivesAt needed ts e := by
  unfold DerivesAt
  split_ifs
  · exact h
  · exact .indexed h
  · exact .operand (.indexed h)

/-- An operand can stand wherever an operator can. -/
theorem of_operand (h : DerivesOperand ts e) (hle : needed ≤ BinaryOp.topRank + 1) :
    DerivesAt needed ts e := by
  unfold DerivesAt
  rw [if_neg (Nat.not_lt.mpr hle)]
  split_ifs
  · exact h
  · exact .operand h

/-- An expression can stand where no more is asked than how tightly it binds. -/
theorem of_expr (h : DerivesExpr (needed - 1) ts e) (hle : needed ≤ BinaryOp.topRank) :
    DerivesAt needed ts e := by
  unfold DerivesAt
  rw [if_neg (by omega), if_neg (by omega)]
  exact h

theorem indexed (h : DerivesAt (BinaryOp.topRank + 2) ts e) : DerivesIndexed ts e := h

theorem operand (h : DerivesAt (BinaryOp.topRank + 1) ts e) : DerivesOperand ts e := h

/-- What derives in a place behind an operator of level `above` has operators above it only. -/
theorem expr {above : Nat} (h : DerivesAt (above + 1) ts e) : DerivesExpr above ts e := by
  unfold DerivesAt at h
  split_ifs at h
  · exact .operand (.indexed h)
  · exact .operand h
  · exact h

/-- What may stand in a place may stand in a place that asks for less. -/
theorem mono {needed' : Nat} (h : DerivesAt needed ts e) (hle : needed' ≤ needed) :
    DerivesAt needed' ts e := by
  unfold DerivesAt at h
  split_ifs at h
  · exact of_indexed h
  · exact of_operand h (by omega)
  · exact of_expr (h.mono (by omega)) (by omega)

theorem whole (h : DerivesAt needed ts e) : DerivesExpr 0 ts e :=
  h.mono (Nat.zero_le needed)

end DerivesAt

/-! ## What is written derives the expression -/

namespace Expr

/-- The tokens derive, in a place that asks for a tightness of `needed`, the expression up to where
it stands. -/
def DerivedAt (needed : Nat) (e : Expr) (ts : List Token) : Prop :=
  ∃ e', DerivesAt needed ts e' ∧ e'.unplaced = e.unplaced

def AllDerived (es : List Expr) (ts : List Token) : Prop :=
  ∃ es', DerivesItems ts es' ∧ unplacedAll es' = unplacedAll es

/-- A part of a list of expressions that has at least one of them. -/
def AllDerivedFrom (es : List Expr) (ts : List Token) : Prop :=
  ∃ es', DerivesItemsFrom ts es' ∧ unplacedAll es' = unplacedAll es

variable {e : Expr} {needed : Nat} {cs : List Char}

/-- What can stand in a place can stand wherever less is asked. -/
theorem DerivedAt.mono {needed' : Nat} {ts : List Token} (h : e.DerivedAt needed ts)
    (hle : needed' ≤ needed) : e.DerivedAt needed' ts := by
  obtain ⟨e', hderives, heq⟩ := h
  exact ⟨e', hderives.mono hle, heq⟩

/-- Brackets let an expression stand anywhere, and are put where they are needed. -/
theorem spells_bracketed (needed : Nat) (h : Spells cs (e.DerivedAt e.tightness)) :
    Spells (e.bracketed needed cs) (e.DerivedAt needed) := by
  unfold bracketed
  split_ifs with hlt
  · refine h.parens.mono ?_
    rintro _ ⟨left, us, right, rfl, hleft, ⟨e', hderives, heq⟩, hright⟩
    exact ⟨e', .of_indexed (.primary (.paren hleft hderives.whole hright)), heq⟩
  · exact h.mono fun ts hts => hts.mono (Nat.le_of_not_lt hlt)

/-- Text that an operator in front of it is not made longer by. -/
def Opens (cs : List Char) : Prop :=
  ∃ c rest, cs = c :: rest ∧ c ≠ '='

theorem Opens.append (h : Opens cs) (rest : List Char) : Opens (cs ++ rest) := by
  obtain ⟨c, cs, rfl, hc⟩ := h
  exact ⟨c, cs ++ rest, rfl, hc⟩

theorem opens_of_word (h : Word cs) : Opens cs := by
  obtain ⟨c, cs, rfl, hstart, -⟩ := h
  refine ⟨c, cs, rfl, ?_⟩
  rintro rfl
  exact absurd hstart (by decide)

theorem opens_showInt {n : Int} (h : 0 ≤ n) : Opens (Text.showInt n) := by
  rw [Text.showInt, if_neg (Int.not_lt.mpr h)]
  cases hdigits : Text.showNat n.natAbs with
  | nil => exact absurd hdigits (Text.showNat_ne_nil _)
  | cons c rest =>
    have hdigit : Text.isDigit c = true :=
      Text.isDigit_of_mem_showNat (hdigits ▸ List.mem_cons_self)
    refine ⟨c, rest, rfl, ?_⟩
    rintro rfl
    exact absurd hdigit (by decide)

theorem opens_bracketed (h : Opens cs) (needed : Nat) : Opens (e.bracketed needed cs) := by
  unfold bracketed
  split_ifs
  · exact ⟨'(', _, rfl, by decide⟩
  · exact h

/-- What is written for an expression goes on from no token in front of it. -/
theorem opens_written : (e : Expr) → e.Writable → Opens e.written
  | .int _ _, h => opens_showInt h
  | .str _ _, _ => ⟨'"', _, rfl, by decide⟩
  | .bool true _, _ => ⟨'t', _, rfl, by decide⟩
  | .bool false _, _ => ⟨'f', _, rfl, by decide⟩
  | .name _, h => opens_of_word h.1
  | .list _ _, _ => ⟨'[', _, rfl, by decide⟩
  | .unary .not _ _, _ => ⟨'!', _, rfl, by decide⟩
  | .unary .neg _ _, _ => ⟨'-', _, rfl, by decide⟩
  | .binary _ left _ _, h => (opens_bracketed (opens_written left h.1) _).append _
  | .index base _ _, h => (opens_bracketed (opens_written base h.1) _).append _
  | .call _ _ _, h => (opens_of_word h.1.1).append _

/-- A list of expressions is no list or has one. -/
theorem spells_allWritten {es : List Expr}
    (h : es ≠ [] → Spells (writtenAll es) (AllDerivedFrom es)) :
    Spells (writtenAll es) (AllDerived es) := by
  cases es with
  | nil => exact spells_nil ⟨[], .none, rfl⟩
  | cons e es =>
    refine (h (List.cons_ne_nil e es)).mono ?_
    rintro ts ⟨es', hderives, heq⟩
    exact ⟨es', .some hderives, heq⟩

theorem digits_showNat (n : Nat) : Digits (Text.showNat n) :=
  ⟨Text.showNat_ne_nil n, List.all_eq_true.mpr fun _ => Text.isDigit_of_mem_showNat⟩

/-- Digits spell the integer that they were written for. -/
theorem spells_int {value : Int64} {span : Span} (h : 0 ≤ value.toInt) :
    Spells (Expr.int value span).written
      ((Expr.int value span).DerivedAt (BinaryOp.topRank + 2)) := by
  have hread := Text.readInt64?_showInt value
  have hdigits : Digits (Text.showInt value.toInt) := by
    rw [Text.showInt, if_neg (Int.not_lt.mpr h)]
    exact digits_showNat _
  refine (spells_digits hdigits (hread ▸ rfl)).mono ?_
  rintro ts ⟨t, rfl, hkind, htext⟩
  have hvalue : t.intExpr = .int value t.span := by
    rw [Token.intExpr, htext, String.toList_ofList, hread]
  exact ⟨_, .of_indexed (.primary (.int hkind)), by rw [hvalue]; rfl⟩

/-- A quoted string spells the string. -/
theorem spells_str (value : String) (span : Span) :
    Spells (Expr.str value span).written
      ((Expr.str value span).DerivedAt (BinaryOp.topRank + 2)) := by
  refine (spells_quoted value.toList).mono ?_
  rintro ts ⟨t, rfl, hkind, htext⟩
  exact ⟨_, .of_indexed (.primary (.str hkind)), by rw [Token.strExpr_of_quoted htext]; rfl⟩

theorem spells_bool (value : Bool) (span : Span) :
    Spells (Expr.bool value span).written
      ((Expr.bool value span).DerivedAt (BinaryOp.topRank + 2)) := by
  cases value with
  | true =>
    have hword : Word "true".toList := ⟨'t', _, rfl, rfl, rfl⟩
    refine (spells_word hword).mono ?_
    rintro ts ⟨t, rfl, hkind, -⟩
    exact ⟨_, .of_indexed (.primary (.true hkind)), rfl⟩
  | false =>
    have hword : Word "false".toList := ⟨'f', _, rfl, rfl, rfl⟩
    refine (spells_word hword).mono ?_
    rintro ts ⟨t, rfl, hkind, -⟩
    exact ⟨_, .of_indexed (.primary (.false hkind)), rfl⟩

theorem spells_name {id : Ident} (h : id.Writable) : Spells id.name.toList fun ts =>
    ∃ t, ts = [t] ∧ t.kind = .ident ∧ t.ident.unplaced = id.unplaced := by
  obtain ⟨hword, hkeyword⟩ := h
  refine (spells_word hword).mono ?_
  rintro ts ⟨t, rfl, hkind, htext⟩
  rw [wordKind, String.ofList_toList, hkeyword] at hkind
  rw [String.ofList_toList] at htext
  exact ⟨t, rfl, hkind, by rw [Ident.unplaced, Token.ident, htext]; rfl⟩

mutual

/-- What is written for an expression is read as tokens that derive it. -/
theorem spells_written : (e : Expr) → e.Writable → Spells e.written (e.DerivedAt e.tightness)
  | .int _ _, h => spells_int h
  | .str value span, _ => spells_str value span
  | .bool value span, _ => spells_bool value span
  | .name id, h => by
    refine (spells_name h).mono ?_
    rintro ts ⟨t, rfl, hkind, heq⟩
    exact ⟨_, .of_indexed (.primary (.name hkind)), congrArg Expr.name heq⟩
  | .list items _, h => by
    have hitems := spells_allWritten fun hne => spells_writtenAll items hne h
    refine hitems.brackets.mono ?_
    rintro _ ⟨left, us, right, rfl, hleft, ⟨items', hderives, heq⟩, hright⟩
    exact ⟨_, .of_indexed (.primary (.list hleft hderives hright)),
      congrArg (Expr.list · nowhere) heq⟩
  | .unary op operand _, h => by
    obtain ⟨c, rest, heq, hc⟩ := opens_bracketed (e := operand) (opens_written operand h)
      (BinaryOp.topRank + 1)
    have hoperand := spells_bracketed (BinaryOp.topRank + 1) (spells_written operand h)
    rw [heq] at hoperand
    rw [written, heq]
    refine (hoperand.sign op hc).mono ?_
    rintro _ ⟨t, us, rfl, hop, e', hderives, heq⟩
    exact ⟨_, .of_operand (.unary hop hderives.operand) (Nat.le_refl _),
      congrArg (Expr.unary op · nowhere) heq⟩
  | .binary op left right _, h => by
    have hleft := spells_bracketed op.rank (spells_written left h.1)
    have hright := spells_bracketed (op.rank + 1) (spells_written right h.2)
    refine (hleft.append (by decide) (hright.operator op)).mono ?_
    rintro _ ⟨us, _, rfl, ⟨l, hl, hleq⟩, t, vs, rfl, hop, r, hr, hreq⟩
    -- the left operand may hold operators of the same level, the right one may not
    have hrank := op.rank_pos
    have hl' : DerivesExpr (op.rank - 1) us l := (hl.mono (by omega)).expr
    have hbinary : DerivesAt op.rank (us ++ t :: vs) (.binary op l r (l.span.merge r.span)) :=
      .of_expr (.binary hop (by omega) hl' hr.expr) op.rank_le
    refine ⟨_, hbinary, ?_⟩
    show Expr.binary op l.unplaced r.unplaced nowhere = _
    rw [hleq, hreq]
    rfl
  | .index base position _, h => by
    have hbase := spells_bracketed (BinaryOp.topRank + 2) (spells_written base h.1)
    have hposition := spells_written position h.2
    refine (hbase.append (by decide) hposition.brackets).mono ?_
    rintro _ ⟨us, _, rfl, ⟨b, hb, hbeq⟩, left, vs, right, rfl, hleft, ⟨p, hp, hpeq⟩, hright⟩
    refine ⟨.index b p (b.span.merge right.span), .of_indexed ?_, ?_⟩
    · rw [← List.append_assoc]
      exact .index hb.indexed hleft hp.whole hright
    · show Expr.index b.unplaced p.unplaced nowhere = _
      rw [hbeq, hpeq]
      rfl
  | .call function args _, h => by
    have hargs := spells_allWritten fun hne => spells_writtenAll args hne h.2
    refine ((spells_name h.1).append (by decide) hargs.parens).mono ?_
    rintro _ ⟨_, _, rfl, ⟨t, rfl, hkind, hteq⟩, left, us, right, rfl, hleft, ⟨args', hderives, heq⟩,
      hright⟩
    refine ⟨_, .of_indexed (.primary (.call hkind hleft hderives hright)), ?_⟩
    show Expr.call t.ident.unplaced (unplacedAll args') nowhere = _
    rw [hteq, heq]
    rfl

/-- Expressions with commas between them spell items. -/
theorem spells_writtenAll : (es : List Expr) → es ≠ [] → AllWritable es →
    Spells (writtenAll es) (AllDerivedFrom es)
  | [e], _, h => by
    refine (spells_written e h.1).mono ?_
    rintro ts ⟨e', hderives, heq⟩
    exact ⟨[e'], .last hderives.whole, congrArg (fun e => [e]) heq⟩
  | e :: e' :: es, _, h => by
    have hfirst := spells_written e h.1
    have hrest := spells_writtenAll (e' :: es) (List.cons_ne_nil _ _) h.2
    refine (hfirst.append (by decide) hrest.comma).mono ?_
    rintro _ ⟨us, _, rfl, ⟨e₁, he₁, heq⟩, t, vs, rfl, hcomma, es', hes', heqs⟩
    refine ⟨e₁ :: es', .comma he₁.whole hcomma hes', ?_⟩
    rw [unplacedAll, unplacedAll, heq, heqs]

end

/-! ## What is written is read -/

/-- The text of an expression, of fewer bytes than a word of 32 bits can count, is read as the
expression, to its end and without a finding, from tokens that words pick out of it. -/
theorem parseExpr_text (e : Expr) (h : e.Writable)
    (hsize : (encodeUtf8 e.text).length < UInt32.size) :
    let read := parseExpr 0 (.start (tokens e.text) e.text.utf8ByteSize)
    (tokens e.text).filterMap Token.finding? = [] ∧ read.rest.ahead = [] ∧
      read.rest.findings = [] ∧ read.value.unplaced = e.unplaced ∧
      ∀ t ∈ tokens e.text, t.PickedOut e.text := by
  have hend : EndsWord [] := rfl
  have hpicked : ∀ t ∈ tokens e.text, t.PickedOut e.text := fun t => pickedOut_of_token hsize
  obtain ⟨ts, ⟨e', hderives, heq⟩, hsound, hscan⟩ := spells_written e h 0 hend
  have htokens : tokens e.text = ts := by
    rw [List.append_nil, scanFrom, List.append_nil] at hscan
    rw [tokens, text, String.toList_ofList, hscan]
  rw [htokens] at hpicked ⊢
  generalize hstart : Cursor.start ts e.text.utf8ByteSize = c
  have hahead : c.ahead = ts ++ [] := by rw [← hstart, List.append_nil]; rfl
  have hfits : ∀ t ∈ ts, t.Fits := fun t ht => (hsound t ht).fits
  -- behind the last token only the end of the text follows
  have hfollows : Cursor.Follows 0 (c.passed ts []) :=
    Cursor.Follows.of_kind (k := .eof) rfl ⟨by decide, by decide, rfl⟩
  have hread := hfollows.whole (hderives.whole.out (Nat.le_refl 0) hfits hahead)
  obtain ⟨hvalue, hrest⟩ := Prod.mk.inj hread
  refine ⟨List.filterMap_eq_nil_iff.mpr fun t ht => ?_, ?_, ?_, ?_, hpicked⟩
  · exact (finding?_eq_none_iff t).mpr (hsound t ht).formed
  · rw [hrest]
    rfl
  · rw [hrest, ← hstart]
    rfl
  · rw [hvalue, heq]

/-- A prefix operator under an index and a right operand of the same rung. -/
theorem parseExpr_text_nested :
    let x : Expr := .name ⟨"x", nowhere⟩
    let one : Expr := .int 1 nowhere
    let e : Expr := .binary .sub (.index (.unary .neg x nowhere) one nowhere)
      (.binary .sub x (.str "\"" nowhere) nowhere) nowhere
    e.text = "(-x)[1] - (x - \"\\\"\")" ∧ (encodeUtf8 e.text).length < UInt32.size ∧
      (parseExpr 0 (.start (tokens e.text) e.text.utf8ByteSize)).value.unplaced = e.unplaced := by
  intro x one e
  have hx : Ident.Writable ⟨"x", nowhere⟩ := ⟨⟨'x', [], rfl, rfl, rfl⟩, by decide⟩
  have hone : 0 ≤ (1 : Int64).toInt := by decide
  have he : e.Writable := ⟨⟨hx, hone⟩, hx, trivial⟩
  have hsize : (encodeUtf8 e.text).length < UInt32.size := by decide +kernel
  obtain ⟨-, -, -, hread, -⟩ := parseExpr_text e he hsize
  exact ⟨by decide +kernel, hsize, hread⟩

end Expr

/-! ## Parentheses that are needed -/

/-- Of what is primary only a text in parentheses has operators outside brackets. -/
theorem DerivesPrimary.exists_parens {ts : List Token} {e : Expr} (h : DerivesPrimary ts e)
    (hlt : e.tightness < BinaryOp.topRank + 2) : ∃ left us right, ts = left :: us ++ [right] ∧
      left.kind = .mark .leftParen ∧ DerivesExpr 0 us e ∧ right.kind = .mark .rightParen := by
  cases h with
  | @int t =>
    unfold Token.intExpr at hlt
    split at hlt <;> exact absurd hlt (Nat.lt_irrefl _)
  | paren hleft h hright => exact ⟨_, _, _, rfl, hleft, h, hright⟩
  | _ => exact absurd hlt (Nat.lt_irrefl _)

/-- In a place that asks for more than an expression has, only parentheses derive it, so none that
is written can be left out. -/
theorem DerivesAt.exists_parens {needed : Nat} {ts : List Token} {e : Expr}
    (h : DerivesAt needed ts e) (hneeded : needed ≤ BinaryOp.topRank + 2)
    (hlt : e.tightness < needed) : ∃ left us right, ts = left :: us ++ [right] ∧
      left.kind = .mark .leftParen ∧ DerivesExpr 0 us e ∧ right.kind = .mark .rightParen := by
  have hindexed : DerivesIndexed ts e → _ := fun h => by
    cases h with
    | primary h => exact h.exists_parens (by omega)
    | index => exact absurd hlt (Nat.not_lt.mpr hneeded)
  have hoperand : DerivesOperand ts e → needed ≤ BinaryOp.topRank + 1 → _ := fun h hle => by
    cases h with
    | indexed h => exact hindexed h
    | unary => exact absurd hlt (Nat.not_lt.mpr hle)
  unfold DerivesAt at h
  split_ifs at h with hprimary hprefix
  · exact hindexed h
  · exact hoperand h (by omega)
  · cases h with
    | operand h => exact hoperand h (by omega)
    | @binary _ op _ _ _ _ _ _ hlevel =>
      have hop : op.rank < needed := hlt
      omega

end LineQuery.Syntax
