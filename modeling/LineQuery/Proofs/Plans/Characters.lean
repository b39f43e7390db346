import LineQuery.Proofs.Plans.IntegerArithmetic
import LineQuery.Proofs.Runs.Agreement
import Mathlib.Algebra.Group.Nat.Defs

/-! # Addresses of characters and items

`substr`, an index and `get_or` check their numbers each in a way of its own: `substr` subtracts in
64 bits, an index and `get_or` look for an item that may not be there. They agree on what lies in a
string or a list, and the subtraction of `substr` never overflows, as the start has been checked
before it. A string in memory has fewer than `2 ^ 63` characters, so its length is an integer.
-/

namespace LineQuery

namespace Builtin

/-! ## Numbers of characters -/

section Numbers

variable {n : Nat} {i : Int64}

theorem lt_zero_iff : i < 0 ↔ i.toInt < 0 := by
  rw [Int64.lt_iff_toInt_lt, Int64.toInt_zero]

/-- A start between the ends leaves a number of characters that 64 bits hold. -/
theorem difference_of_between (hn : n < 2 ^ 63) (hi : 0 ≤ i.toInt ∧ i.toInt ≤ n) :
    ∃ left, difference (Int64.ofNat n) i = .ok left ∧ left.toInt = n - i.toInt := by
  have hlow : (-0x8000000000000000 : Int) ≤ n - i.toInt := by omega
  have hhigh : n - i.toInt < (0x8000000000000000 : Int) := by omega
  refine ⟨Int64.ofInt (n - i.toInt), ?_, Int64.toInt_ofInt_of_le hlow hhigh⟩
  rw [difference, Int64.toInt_ofNat_of_lt hn, Text.toInt64?, if_pos ⟨hlow, hhigh⟩]

/-- A start outside of the ends, as integers of 64 bits are compared. -/
theorem outside_iff (hn : n < 2 ^ 63) :
    i < 0 ∨ Int64.ofNat n < i ↔ ¬(0 ≤ i.toInt ∧ i.toInt ≤ n) := by
  rw [lt_zero_iff, Int64.lt_iff_toInt_lt, Int64.toInt_ofNat_of_lt hn]
  omega

theorem checkStart_of_between (hn : n < 2 ^ 63) (hi : 0 ≤ i.toInt ∧ i.toInt ≤ n) :
    checkStart n i = .ok () :=
  if_neg (mt (outside_iff hn).mp (not_not_intro hi))

/-- A start outside of the string is told as such, also if it is negative. -/
theorem checkStart_of_not_between (hn : n < 2 ^ 63) (hi : ¬(0 ≤ i.toInt ∧ i.toInt ≤ n)) :
    checkStart n i = .error (.substrStart i n) :=
  if_pos ((outside_iff hn).mpr hi)

variable {k : Int64}

/-- A length that the string has from its start is accepted. -/
theorem checkCount_of_between (hn : n < 2 ^ 63) (hi : 0 ≤ i.toInt ∧ i.toInt ≤ n)
    (hk : 0 ≤ k.toInt ∧ k.toInt ≤ n - i.toInt) : checkCount n i k = .ok () := by
  obtain ⟨left, hleft, hvalue⟩ := difference_of_between hn hi
  have hsign : ¬k < 0 := by
    rw [lt_zero_iff]
    omega
  have hroom : ¬left < k := by
    rw [Int64.lt_iff_toInt_lt, hvalue]
    omega
  rw [checkCount, if_neg hsign, hleft]
  exact if_neg hroom

/-- Behind a start in the string the subtraction does not overflow, and the length is to blame. -/
theorem checkCount_of_not_between (hn : n < 2 ^ 63) (hi : 0 ≤ i.toInt ∧ i.toInt ≤ n)
    (hk : ¬(0 ≤ k.toInt ∧ k.toInt ≤ n - i.toInt)) :
    checkCount n i k = .error (.substrLength k i n) := by
  obtain ⟨left, hleft, hvalue⟩ := difference_of_between hn hi
  by_cases hsign : k < 0
  · rw [checkCount, if_pos hsign]
  · have hroom : left < k := by
      rw [lt_zero_iff] at hsign
      rw [Int64.lt_iff_toInt_lt, hvalue]
      omega
    rw [checkCount, if_neg hsign, hleft]
    exact if_pos hroom

end Numbers

/-! ## Parts of a string -/

section Substr

variable {s : String} {i k : Int64}

theorem apply_substr (s : String) (i k : Int64) : substr.apply [.str s, .int i, .int k] =
    checkStart s.length i >>= fun _ => checkCount s.length i k >>= fun _ =>
      .ok (text ((s.toList.drop i.toInt.toNat).take k.toInt.toNat)) := by
  rw [← String.length_toList]
  rfl

/-- Without a number of characters all of them are taken. -/
theorem apply_substr_rest (hs : s.length < 2 ^ 63) (hi : 0 ≤ i.toInt ∧ i.toInt ≤ s.length) :
    substr.apply [.str s, .int i] = .ok (text (s.toList.drop i.toInt.toNat)) := by
  obtain ⟨left, hleft, hvalue⟩ := difference_of_between hs hi
  have happly : substr.apply [.str s, .int i] = checkStart s.length i >>= fun _ =>
      difference (Int64.ofNat s.length) i >>= fun count => checkCount s.length i count >>= fun _ =>
        .ok (text ((s.toList.drop i.toInt.toNat).take count.toInt.toNat)) := by
    rw [← String.length_toList]
    rfl
  have hall : (s.toList.drop i.toInt.toNat).take left.toInt.toNat =
      s.toList.drop i.toInt.toNat := by
    refine List.take_of_length_le ?_
    rw [List.length_drop, String.length_toList, hvalue]
    omega
  rw [happly, checkStart_of_between hs hi, hleft]
  show (checkCount s.length i left >>= fun _ => _) = _
  rw [checkCount_of_between hs hi (by omega), hall]
  rfl

/-- `substr` takes characters, not bytes. -/
theorem apply_substr_of_between (hs : s.length < 2 ^ 63) (hi : 0 ≤ i.toInt ∧ i.toInt ≤ s.length)
    (hk : 0 ≤ k.toInt ∧ k.toInt ≤ s.length - i.toInt) :
    substr.apply [.str s, .int i, .int k] =
      .ok (text ((s.toList.drop i.toInt.toNat).take k.toInt.toNat)) := by
  rw [apply_substr, checkStart_of_between hs hi, checkCount_of_between hs hi hk]
  rfl

theorem apply_substr_of_start (hs : s.length < 2 ^ 63)
    (hi : ¬(0 ≤ i.toInt ∧ i.toInt ≤ s.length)) :
    substr.apply [.str s, .int i, .int k] = .error (.substrStart i s.length) := by
  rw [apply_substr, checkStart_of_not_between hs hi]
  rfl

theorem apply_substr_of_count (hs : s.length < 2 ^ 63) (hi : 0 ≤ i.toInt ∧ i.toInt ≤ s.length)
    (hk : ¬(0 ≤ k.toInt ∧ k.toInt ≤ s.length - i.toInt)) :
    substr.apply [.str s, .int i, .int k] = .error (.substrLength k i s.length) := by
  rw [apply_substr, checkStart_of_between hs hi, checkCount_of_not_between hs hi hk]
  rfl

end Substr

/-! ## Items -/

section Items

variable {α : Type} {items : List α} {i : Int64}

/-- A list has an item at each number below its length. -/
theorem itemAt?_of_between (hi : 0 ≤ i.toInt ∧ i.toInt < items.length) :
    ∃ h : i.toInt.toNat < items.length, itemAt? items i = some items[i.toInt.toNat] := by
  have hsign : ¬i < 0 := by
    rw [lt_zero_iff]
    omega
  have hlt : i.toInt.toNat < items.length := by omega
  refine ⟨hlt, ?_⟩
  rw [itemAt?, if_neg hsign, List.getElem?_eq_getElem hlt]

theorem itemAt?_of_not_between (hi : ¬(0 ≤ i.toInt ∧ i.toInt < items.length)) :
    itemAt? items i = none := by
  by_cases hsign : i < 0
  · rw [itemAt?, if_pos hsign]
  · rw [itemAt?, if_neg hsign, List.getElem?_eq_none]
    rw [lt_zero_iff] at hsign
    omega

/-- `get_or` has the default at hand for every item that is not there. -/
theorem apply_getOr (xs : List Value) (i : Int64) (d : Value) :
    getOr.apply [.list xs, .int i, d] = .ok ((itemAt? xs i).getD d) := by
  cases hitem : itemAt? xs i <;>
    simp [apply, listArg, intArg, anyArg, hitem, bind, Except.bind, pure, Except.pure]

end Items

end Builtin

/-! ## Expressions -/

section Expressions

variable {row : Row} {text start count items default : Node} {s : String} {xs : List Value}
  {d : Value} {i k : Int}

theorem result_evalAll {nodes : List Node} {vs : List Value}
    (h : List.Forall₂ (fun node v => (node.eval row).result = .ok v) nodes vs) :
    (Node.evalAll row nodes).result = .ok vs := by
  induction h with
  | nil => rfl
  | cons hnode _ ih =>
    rw [Node.evalAll, Traced.result_bind_of_ok hnode, Traced.result_bind_of_ok ih]
    rfl

/-- A call of values gives what its function makes of them. -/
theorem result_call {f : Builtin} (hf : f ≠ .case) {nodes : List Node} {vs : List Value}
    (h : List.Forall₂ (fun node v => (node.eval row).result = .ok v) nodes vs) (pos : Position) :
    ((Node.call f nodes pos).eval row).result =
      (f.apply vs).mapError fun e => ⟨.call e, pos⟩ := by
  rw [eval_call hf, Traced.result_bind_of_ok (result_evalAll h), callValue]
  cases f.apply vs <;> rfl

/-- An index is looked up once its parts have values. -/
theorem result_index {base : Node} {v : Value} {m : Int64}
    (hbase : (base.eval row).result = .ok v) (hstart : (start.eval row).result = .ok (.int m))
    (pos : Position) : ((Node.index base start pos).eval row).result =
      (Eval.located pos (indexValue v m)).result := by
  rw [Node.eval, Traced.result_bind_of_ok hbase, Traced.result_bind_of_ok hstart]
  exact Traced.result_bind_of_ok rfl _

/-- What has been taken has as many characters as were asked for. -/
theorem substr_succeeds (hs : s.length < 2 ^ 63) (htext : (text.eval row).result = .ok (.str s))
    (hstart : GivesInt i (start.eval row).result) (hcount : GivesInt k (count.eval row).result)
    (hi : 0 ≤ i ∧ i ≤ s.length) (hk : 0 ≤ k ∧ k ≤ s.length - i) (pos p : Position) :
    (∃ t, ((Node.call .substr [text, start, count] pos).eval row).result = .ok (.str t)) ∧
      GivesInt k ((Node.call .len [.call .substr [text, start, count] pos] p).eval row).result := by
  obtain ⟨m, rfl, hm⟩ := hstart
  obtain ⟨n, rfl, hn⟩ := hcount
  have hsubstr :=
    result_call (f := .substr) (by decide) (.cons htext (.cons hm (.cons hn .nil))) pos
  rw [Builtin.apply_substr_of_between hs hi hk] at hsubstr
  refine ⟨⟨_, hsubstr⟩, Int64.ofNat _, ?_,
    result_call (f := .len) (by decide) (.cons hsubstr .nil) p⟩
  have hlength : ((s.toList.drop m.toInt.toNat).take n.toInt.toNat).length = n.toInt.toNat := by
    rw [List.length_take, List.length_drop, String.length_toList]
    omega
  rw [String.length_ofList, hlength, Int64.toInt_ofNat_of_lt (by omega)]
  omega

/-- A refused start or number of characters is told, and nothing else is. -/
theorem substr_fails (hs : s.length < 2 ^ 63) (htext : (text.eval row).result = .ok (.str s))
    (hstart : GivesInt i (start.eval row).result) (hcount : GivesInt k (count.eval row).result)
    (pos : Position) :
    (¬(0 ≤ i ∧ i ≤ s.length) → FailsSaying ("`substr` start " ++ Text.intText i ++
        " is outside a string of length " ++ Text.natText s.length) pos
      ((Node.call .substr [text, start, count] pos).eval row).result) ∧
    (0 ≤ i ∧ i ≤ s.length → ¬(0 ≤ k ∧ k ≤ s.length - i) →
      FailsSaying ("`substr` length " ++ Text.intText k ++ " from " ++ Text.intText i ++
        " runs past a string of length " ++ Text.natText s.length) pos
      ((Node.call .substr [text, start, count] pos).eval row).result) := by
  obtain ⟨m, rfl, hm⟩ := hstart
  obtain ⟨n, rfl, hn⟩ := hcount
  have hsubstr :=
    result_call (f := .substr) (by decide) (.cons htext (.cons hm (.cons hn .nil))) pos
  constructor
  · intro hi
    rw [hsubstr, Builtin.apply_substr_of_start hs hi]
    exact ⟨_, rfl, rfl, rfl⟩
  · intro hi hk
    rw [hsubstr, Builtin.apply_substr_of_count hs hi hk]
    exact ⟨_, rfl, rfl, rfl⟩

/-- The characters up to a start and those from it are the string. -/
theorem substr_parts (hs : s.length < 2 ^ 63) (htext : (text.eval row).result = .ok (.str s))
    (hstart : GivesInt i (start.eval row).result) (hi : 0 ≤ i ∧ i ≤ s.length)
    (p₁ p₂ p₃ p₄ : Position) :
    ((Node.binary .add (.call .substr [text, .const (.int 0) p₁, start] p₂)
      (.call .substr [text, start] p₃) p₄).eval row).result = .ok (.str s) := by
  obtain ⟨m, rfl, hm⟩ := hstart
  have hzero : ((Node.const (.int 0) p₁).eval row).result = .ok (.int 0) := rfl
  have hfront := result_call (f := .substr) (by decide)
    (.cons htext (.cons hzero (.cons hm .nil))) p₂
  have hback := result_call (f := .substr) (by decide) (.cons htext (.cons hm .nil)) p₃
  rw [Builtin.apply_substr_of_between hs (by simp) (by simpa using hi)] at hfront
  rw [Builtin.apply_substr_rest hs hi] at hback
  rw [result_binary rfl hfront hback]
  show Except.ok (Value.str (String.ofList _ ++ String.ofList _)) = _
  rw [← String.ofList_append, Int64.toInt_zero, Int.toNat_zero, List.drop_zero,
    List.take_append_drop, String.ofList_toList]

/-- An index gives the string of one character that `substr` gives. -/
theorem index_eq_substr (hs : s.length < 2 ^ 63) (htext : (text.eval row).result = .ok (.str s))
    (hstart : GivesInt i (start.eval row).result) (hi : 0 ≤ i ∧ i < s.length)
    (pos p₁ p₂ : Position) : ∃ c, ((Node.index text start pos).eval row).result = .ok (.str c) ∧
      ((Node.call .substr [text, start, .const (.int 1) p₁] p₂).eval row).result =
        .ok (.str c) := by
  obtain ⟨m, rfl, hm⟩ := hstart
  have hone : ((Node.const (.int 1) p₁).eval row).result = .ok (.int 1) := rfl
  have hsubstr := result_call (f := .substr) (by decide)
    (.cons htext (.cons hm (.cons hone .nil))) p₂
  have hone' : (1 : Int64).toInt = 1 := rfl
  rw [Builtin.apply_substr_of_between hs (by omega) (by omega)] at hsubstr
  rw [← String.length_toList] at hi
  obtain ⟨hlt, hitem⟩ := Builtin.itemAt?_of_between hi
  refine ⟨_, ?_, hsubstr⟩
  rw [result_index htext hm, indexValue, hitem, List.drop_eq_getElem_cons hlt]
  rfl

/-- Everywhere else there is no character. -/
theorem index_fails (htext : (text.eval row).result = .ok (.str s))
    (hstart : GivesInt i (start.eval row).result) (hi : ¬(0 ≤ i ∧ i < s.length)) (pos : Position) :
    FailsSaying ("index " ++ Text.intText i ++ " out of range for length " ++
      Text.natText s.length) pos ((Node.index text start pos).eval row).result := by
  obtain ⟨m, rfl, hm⟩ := hstart
  rw [← String.length_toList] at hi
  rw [result_index htext hm, indexValue, Builtin.itemAt?_of_not_between hi]
  exact ⟨_, rfl, rfl, rfl⟩

/-- `get_or` gives what the index gives, and the default where the index fails, which is outside
of the list. -/
theorem getOr_follows_index (hitems : (items.eval row).result = .ok (.list xs))
    (hstart : GivesInt i (start.eval row).result) (hdefault : (default.eval row).result = .ok d)
    (pos p : Position) :
    ((∃ v, ((Node.index items start pos).eval row).result = .ok v) ↔ 0 ≤ i ∧ i < xs.length) ∧
    (∀ v, ((Node.index items start pos).eval row).result = .ok v →
      ((Node.call .getOr [items, start, default] p).eval row).result = .ok v) ∧
    (∀ e, ((Node.index items start pos).eval row).result = .error e →
      ((Node.call .getOr [items, start, default] p).eval row).result = .ok d) := by
  obtain ⟨m, rfl, hm⟩ := hstart
  have hgetOr := result_call (f := .getOr) (by decide)
    (.cons hitems (.cons hm (.cons hdefault .nil))) p
  rw [hgetOr, Builtin.apply_getOr, result_index hitems hm, indexValue]
  by_cases hi : 0 ≤ m.toInt ∧ m.toInt < xs.length
  · obtain ⟨hlt, hitem⟩ := Builtin.itemAt?_of_between hi
    rw [hitem]
    exact ⟨⟨fun _ => hi, fun _ => ⟨_, rfl⟩⟩, fun v hv => hv, fun e he => by cases he⟩
  · rw [Builtin.itemAt?_of_not_between hi]
    refine ⟨⟨?_, fun h => absurd h hi⟩, fun v hv => ?_, fun _ _ => rfl⟩
    · rintro ⟨v, hv⟩
      cases hv
    · cases hv

/-- `substr` takes `k` characters from `i` exactly if the string has them there, and otherwise tells
which of the two is wrong, so that no subtraction overflows on the way. The characters up to `i` and
those from it are the string. An index is `substr` of one character where there is one, and out of
range everywhere else, and `get_or` agrees with an index on what is in a list. -/
theorem characters_addressed (hs : s.length < 2 ^ 63)
    (htext : (text.eval row).result = .ok (.str s))
    (hstart : GivesInt i (start.eval row).result) (hcount : GivesInt k (count.eval row).result)
    (hitems : (items.eval row).result = .ok (.list xs))
    (hdefault : (default.eval row).result = .ok d) (p₁ p₂ p₃ p₄ : Position) :
    (0 ≤ i ∧ i ≤ s.length ∧ 0 ≤ k ∧ k ≤ s.length - i →
      (∃ t, ((Node.call .substr [text, start, count] p₁).eval row).result = .ok (.str t)) ∧
      GivesInt k
        ((Node.call .len [.call .substr [text, start, count] p₁] p₂).eval row).result) ∧
    (¬(0 ≤ i ∧ i ≤ s.length) → FailsSaying ("`substr` start " ++ Text.intText i ++
        " is outside a string of length " ++ Text.natText s.length) p₁
      ((Node.call .substr [text, start, count] p₁).eval row).result) ∧
    (0 ≤ i ∧ i ≤ s.length → ¬(0 ≤ k ∧ k ≤ s.length - i) →
      FailsSaying ("`substr` length " ++ Text.intText k ++ " from " ++ Text.intText i ++
        " runs past a string of length " ++ Text.natText s.length) p₁
      ((Node.call .substr [text, start, count] p₁).eval row).result) ∧
    (0 ≤ i ∧ i ≤ s.length →
      ((Node.binary .add (.call .substr [text, .const (.int 0) p₁, start] p₂)
        (.call .substr [text, start] p₃) p₄).eval row).result = .ok (.str s)) ∧
    (0 ≤ i ∧ i < s.length → ∃ c, ((Node.index text start p₁).eval row).result = .ok (.str c) ∧
      ((Node.call .substr [text, start, .const (.int 1) p₂] p₃).eval row).result =
        .ok (.str c)) ∧
    (¬(0 ≤ i ∧ i < s.length) → FailsSaying ("index " ++ Text.intText i ++
        " out of range for length " ++ Text.natText s.length) p₁
      ((Node.index text start p₁).eval row).result) ∧
    ((∃ v, ((Node.index items start p₁).eval row).result = .ok v) ↔ 0 ≤ i ∧ i < xs.length) ∧
    (∀ v, ((Node.index items start p₁).eval row).result = .ok v →
      ((Node.call .getOr [items, start, default] p₂).eval row).result = .ok v) ∧
    (∀ e, ((Node.index items start p₁).eval row).result = .error e →
      ((Node.call .getOr [items, start, default] p₂).eval row).result = .ok d) := by
  obtain ⟨hbadStart, hbadCount⟩ := substr_fails hs htext hstart hcount p₁
  refine ⟨?_, hbadStart, hbadCount, ?_, ?_, ?_, getOr_follows_index hitems hstart hdefault p₁ p₂⟩
  · rintro ⟨hlow, hhigh, hk⟩
    exact substr_succeeds hs htext hstart hcount ⟨hlow, hhigh⟩ hk p₁ p₂
  · intro hi
    exact substr_parts hs htext hstart hi p₁ p₂ p₃ p₄
  · intro hi
    exact index_eq_substr hs htext hstart hi p₁ p₂ p₃
  · intro hi
    exact index_fails htext hstart hi p₁

/-- Characters of several bytes count as one, and there are none at the end or in front of the
string. -/
theorem characters_addressed_of_several_bytes :
    let text := Node.const (.str "a€é") ⟨1, 24⟩
    let items := Node.const (.list [.bool true, .str "b", .int 7]) ⟨1, 24⟩
    let default := Node.const (.str "-") ⟨1, 24⟩
    let number := fun n => Node.const (.int n) ⟨1, 24⟩
    "a€é".length < 2 ^ 63 ∧
    (∃ t, ((Node.call .substr [text, number 1, number 2] ⟨1, 17⟩).eval []).result =
      .ok (.str t)) ∧
    FailsSaying "`substr` length 3 from 1 runs past a string of length 3" ⟨1, 17⟩
      ((Node.call .substr [text, number 1, number 3] ⟨1, 17⟩).eval []).result ∧
    FailsSaying "index -9223372036854775808 out of range for length 3" ⟨1, 17⟩
      ((Node.index text (number Int64.minValue) ⟨1, 17⟩).eval []).result ∧
    ((Node.call .getOr [items, number 2, default] ⟨1, 17⟩).eval []).result = .ok (.int 7) := by
  intro text items default number
  have hs : "a€é".length < 2 ^ 63 := by decide
  have htext : (text.eval []).result = .ok (.str "a€é") := rfl
  have hitems : (items.eval []).result = .ok (.list [.bool true, .str "b", .int 7]) := rfl
  have hdefault : (default.eval []).result = .ok (.str "-") := rfl
  have hnumber : ∀ n : Int64, GivesInt n.toInt ((number n).eval []).result := fun n => ⟨n, rfl, rfl⟩
  obtain ⟨hok, -⟩ := characters_addressed hs htext (hnumber 1) (hnumber 2) hitems hdefault
    ⟨1, 17⟩ ⟨1, 17⟩ ⟨1, 17⟩ ⟨1, 17⟩
  obtain ⟨-, -, hcount, -⟩ := characters_addressed hs htext (hnumber 1) (hnumber 3) hitems hdefault
    ⟨1, 17⟩ ⟨1, 17⟩ ⟨1, 17⟩ ⟨1, 17⟩
  obtain ⟨-, -, -, -, -, hindex, -⟩ := characters_addressed hs htext (hnumber Int64.minValue)
    (hnumber 0) hitems hdefault ⟨1, 17⟩ ⟨1, 17⟩ ⟨1, 17⟩ ⟨1, 17⟩
  obtain ⟨-, -, -, -, -, -, -, hgetOr, -⟩ := characters_addressed hs htext (hnumber 2)
    (hnumber 0) hitems hdefault ⟨1, 17⟩ ⟨1, 17⟩ ⟨1, 17⟩ ⟨1, 17⟩
  exact ⟨hs, (hok (by decide)).1, hcount (by decide) (by decide), hindex (by decide),
    hgetOr (.int 7) rfl⟩

end Expressions

end LineQuery
