import LineQuery.Proofs.Text.Utf8
import LineQuery.Store.Codec
import Mathlib.Algebra.Group.Nat.Defs
import Mathlib.Tactic.SplitIfs

/-! # Laws of binary codecs

Two laws, each kept when readers are put one after another. What was written is read back, and
anything behind it is left alone; a number that is too large for its field may be refused, but
it is not read as another. And a reader looks at nothing behind what it reads, so it reads the
same from a longer byte string. From both it follows that the front of what was written is not
read, unless it is all of it.
-/

namespace LineQuery.Store

open LineQuery.Text (Bytes)

variable {α β : Type} {refusal : Prop}

/-! ## Reading what was written -/

/-- A reader reads `bs` as `v` and leaves what stands behind it. Only where `refusal` allows that
may it read nothing instead. -/
def Reader.Reads (refusal : Prop) (r : Reader α) (bs : Bytes) (v : α) : Prop :=
  ∀ rest, r (bs ++ rest) = some (v, rest) ∨ refusal ∧ r (bs ++ rest) = none

/-- A codec reads back what it writes for a value. -/
def Codec.Returns (refusal : Prop) (c : Codec α) (v : α) : Prop :=
  c.read.Reads refusal (c.write v) v

theorem Reader.bind_apply (r : Reader α) (f : α → Reader β) (bs : Bytes) :
    (r >>= f) bs = (r bs).bind fun p => f p.1 p.2 := rfl

namespace Reader.Reads

variable {r : Reader α} {bs : Bytes} {v : α}

theorem of_eq (h : ∀ rest, r (bs ++ rest) = some (v, rest)) : r.Reads refusal bs v :=
  fun rest => .inl (h rest)

theorem of_refused (hrefusal : refusal) (h : ∀ rest, r (bs ++ rest) = none) :
    r.Reads refusal bs v :=
  fun rest => .inr ⟨hrefusal, h rest⟩

theorem pure (v : α) : Reads refusal (Pure.pure v : Reader α) [] v :=
  of_eq fun _ => rfl

/-- One reader after another reads one byte string after another. -/
theorem bind {f : α → Reader β} {bs' : Bytes} {w : β} (h : r.Reads refusal bs v)
    (hf : (f v).Reads refusal bs' w) : (r >>= f).Reads refusal (bs ++ bs') w := by
  intro rest
  rw [List.append_assoc, bind_apply]
  rcases h (bs' ++ rest) with hread | ⟨hrefusal, hnone⟩
  · rw [hread]
    exact hf rest
  · rw [hnone]
    exact .inr ⟨hrefusal, rfl⟩

theorem map (h : r.Reads refusal bs v) (f : α → β) :
    Reads refusal (r >>= fun a => Pure.pure (f a)) bs (f v) := by
  have hbind := h.bind (f := fun a => (Pure.pure (f a) : Reader β)) (Reads.pure (f v))
  rwa [List.append_nil] at hbind

/-- Where nothing may be refused, what was written is read. -/
theorem eq_some (h : r.Reads False bs v) (rest : Bytes) : r (bs ++ rest) = some (v, rest) :=
  (h rest).resolve_right fun hrefused => hrefused.1

end Reader.Reads

/-! ## Looking at nothing more -/

/-- What one reader reads, another reads as well if more stands behind it. -/
def Reader.Extends (r s : Reader α) : Prop :=
  ∀ bs v rest, r bs = some (v, rest) → ∀ more, s (bs ++ more) = some (v, rest ++ more)

/-- A reader that looks at nothing behind what it reads. -/
def Reader.Local (r : Reader α) : Prop := r.Extends r

namespace Reader

theorem Extends.pure (v : α) : Extends (Pure.pure v : Reader α) (Pure.pure v) := by
  intro bs w rest h more
  obtain ⟨rfl, rfl⟩ : v = w ∧ bs = rest := Prod.mk.inj (Option.some.inj h)
  rfl

theorem Extends.failure (s : Reader α) : Extends (Alternative.failure : Reader α) s := by
  intro bs v rest h
  exact absurd h nofun

theorem Extends.bind {r s : Reader α} {f g : α → Reader β} (h : r.Extends s)
    (hf : ∀ a, (f a).Extends (g a)) : (r >>= f).Extends (s >>= g) := by
  intro bs w rest hread more
  rw [bind_apply] at hread ⊢
  obtain ⟨⟨a, mid⟩, hfirst, hsecond⟩ := Option.bind_eq_some_iff.mp hread
  rw [h bs a mid hfirst more]
  exact hf a mid w rest hsecond more

theorem Extends.map {r s : Reader α} (h : r.Extends s) (f : α → β) :
    Extends (r >>= fun a => Pure.pure (f a)) (s >>= fun a => Pure.pure (f a)) :=
  h.bind fun a => Extends.pure (f a)

theorem Local.pure (v : α) : Local (Pure.pure v : Reader α) := Extends.pure v

theorem Local.failure : Local (Alternative.failure : Reader α) := Extends.failure _

theorem Local.bind {r : Reader α} {f : α → Reader β} (h : r.Local) (hf : ∀ a, (f a).Local) :
    (r >>= f).Local :=
  Extends.bind h hf

theorem Local.map {r : Reader α} (h : r.Local) (f : α → β) :
    Local (r >>= fun a => Pure.pure (f a)) :=
  Extends.map h f

end Reader

namespace Codec

variable {c : Codec α} {v : α}

/-- What is read off the front of written bytes is the value that was written, and then the front
is all of them. -/
theorem Returns.eq_of_front (h : c.Returns refusal v) (hlocal : c.read.Local) {front : Bytes}
    (hfront : front <+: c.write v) {w : α} {rest : Bytes}
    (hread : c.read front = some (w, rest)) : w = v ∧ front = c.write v := by
  obtain ⟨behind, hwhole⟩ := hfront
  have hall : c.read (c.write v) = some (w, rest ++ behind) := by
    rw [← hwhole]
    exact hlocal front w rest hread behind
  have hwritten := h []
  rw [List.append_nil, hall] at hwritten
  rcases hwritten with hsome | ⟨-, hnone⟩
  · obtain ⟨hvalue, hnothing⟩ := Prod.mk.inj (Option.some.inj hsome)
    obtain ⟨-, rfl⟩ := List.append_eq_nil_iff.mp hnothing
    exact ⟨hvalue, by rw [← hwhole, List.append_nil]⟩
  · exact nomatch hnone

end Codec

/-! ## Bytes and words -/

theorem local_readByte : readByte.Local := by
  intro bs b rest h more
  cases bs with
  | nil => exact nomatch h
  | cons a as =>
    obtain ⟨rfl, rfl⟩ : a = b ∧ as = rest := Prod.mk.inj (Option.some.inj h)
    rfl

theorem reads_readByte (b : UInt8) : readByte.Reads refusal [b] b :=
  .of_eq fun _ => rfl

theorem local_readBytes (count : Nat) : (readBytes count).Local := by
  intro bs v rest h more
  unfold readBytes at h ⊢
  split_ifs at h with hcount
  obtain ⟨rfl, rfl⟩ : bs.take count = v ∧ bs.drop count = rest :=
    Prod.mk.inj (Option.some.inj h)
  rw [if_pos (by rw [List.length_append]; omega), List.take_append_of_le_length hcount,
    List.drop_append_of_le_length hcount]

theorem reads_readBytes (bs : Bytes) : (readBytes bs.length).Reads refusal bs bs := by
  refine .of_eq fun rest => ?_
  rw [readBytes, if_pos (by rw [List.length_append]; omega), List.take_left, List.drop_left]

@[simp] theorem length_littleEndian (width n : Nat) : (littleEndian width n).length = width := by
  induction width generalizing n with
  | zero => rfl
  | succ width ih => rw [littleEndian, List.length_cons, ih]

/-- A number is read back from its lowest bytes if these are all of them. -/
theorem ofLittleEndian_littleEndian {width n : Nat} (h : n < 256 ^ width) :
    ofLittleEndian (littleEndian width n) = n := by
  induction width generalizing n with
  | zero =>
    rw [Nat.pow_zero] at h
    rw [littleEndian, ofLittleEndian]
    omega
  | succ width ih =>
    have hrest : n / 256 < 256 ^ width := by
      rw [Nat.pow_succ] at h
      exact Nat.div_lt_of_lt_mul (by rwa [Nat.mul_comm])
    rw [littleEndian, ofLittleEndian, ih hrest, Text.toNat_ofNat_of_lt (by omega)]
    omega

theorem local_readWord (width : Nat) : (readWord width).Local :=
  (local_readBytes width).map _

theorem reads_readWord {width n : Nat} (h : n < 256 ^ width) :
    (readWord width).Reads refusal (littleEndian width n) n := by
  have hbytes := @reads_readBytes refusal (littleEndian width n)
  rw [length_littleEndian] at hbytes
  have hword := hbytes.map ofLittleEndian
  rwa [ofLittleEndian_littleEndian h] at hword

theorem local_fixedBytes (count : Nat) : (fixedBytes count).read.Local := by
  intro bs v rest h more
  unfold fixedBytes at h ⊢
  dsimp only at h ⊢
  split_ifs at h with hcount
  obtain ⟨rfl, rfl⟩ := Prod.mk.inj (Option.some.inj h)
  rw [dif_pos (by rw [List.length_append]; omega)]
  simp only [List.take_append_of_le_length hcount, List.drop_append_of_le_length hcount]

theorem returns_fixedBytes {count : Nat} (v : Vector UInt8 count) :
    (fixedBytes count).Returns refusal v := by
  refine .of_eq fun rest => ?_
  have hlength : v.toList.length = count := Vector.length_toList
  unfold fixedBytes
  dsimp only
  rw [dif_pos (by rw [List.length_append]; omega)]
  simp only [List.take_left' hlength, List.drop_left' hlength]
  rfl

/-! ## Numbers -/

theorem local_readNat (width : Nat) : (readNat width).Local := by
  refine local_readByte.bind fun b => ?_
  split_ifs
  · exact .pure _
  · exact local_readWord 2
  · exact local_readWord 4
  · exact local_readWord 8
  · exact .failure

/-- A number of two bytes is read by every field. -/
theorem reads_readNat_of_lt_two {width n : Nat} (h : n < 0x10000) :
    (readNat width).Reads refusal (writeNat n) n := by
  unfold readNat writeNat
  split_ifs with hsmall
  · have hbyte := Text.toNat_ofNat_of_lt (n := n) (by omega)
    have hlt : UInt8.ofNat n < 251 := by
      rw [UInt8.lt_iff_toNat_lt, hbyte]
      exact hsmall
    refine .of_eq fun rest => ?_
    rw [Reader.bind_apply]
    simp only [readByte, List.singleton_append, Option.bind_some, if_pos hlt, hbyte]
    rfl
  · exact (reads_readByte 251).bind (reads_readWord h)

theorem reads_readNat_of_lt_four {width n : Nat} (h : n < 0x100000000) (hwidth : 4 ≤ width) :
    (readNat width).Reads refusal (writeNat n) n := by
  by_cases hsmall : n < 0x10000
  · exact reads_readNat_of_lt_two hsmall
  · unfold readNat writeNat
    rw [if_neg (by omega), if_neg hsmall, if_pos h]
    refine (reads_readByte 252).bind ?_
    dsimp only
    rw [if_neg (by decide), if_neg (by decide), if_pos ⟨rfl, hwidth⟩]
    exact reads_readWord h

theorem reads_readNat_of_lt_eight {width n : Nat} (h : n < 0x10000000000000000)
    (hwidth : 8 ≤ width) : (readNat width).Reads refusal (writeNat n) n := by
  by_cases hsmall : n < 0x100000000
  · exact reads_readNat_of_lt_four hsmall (by omega)
  · unfold readNat writeNat
    rw [if_neg (by omega), if_neg (by omega), if_neg hsmall]
    refine (reads_readByte 253).bind ?_
    dsimp only
    rw [if_neg (by decide), if_neg (by decide), if_neg (fun h => absurd h.1 (by decide)),
      if_pos ⟨rfl, hwidth⟩]
    exact reads_readWord h

/-- A number that is too large for a field of two bytes is refused by it. -/
theorem readNat_two_eq_none {n : Nat} (h : 0x10000 ≤ n) (rest : Bytes) :
    readNat 2 (writeNat n ++ rest) = none := by
  unfold writeNat
  rw [if_neg (by omega), if_neg (by omega)]
  split_ifs <;> rfl

theorem readNat_four_eq_none {n : Nat} (h : 0x100000000 ≤ n) (rest : Bytes) :
    readNat 4 (writeNat n ++ rest) = none := by
  unfold writeNat
  rw [if_neg (by omega), if_neg (by omega), if_neg (by omega)]
  rfl

/-- A number in a field of two bytes, if it is small enough or may be refused. -/
theorem returns_natural_two {n : Nat} (h : refusal ∨ n < 0x10000) :
    (natural 2).Returns refusal n := by
  by_cases hsmall : n < 0x10000
  · exact reads_readNat_of_lt_two hsmall
  · exact .of_refused (h.resolve_right hsmall) (readNat_two_eq_none (Nat.le_of_not_lt hsmall))

/-- A number in a field of four bytes, if it is small enough or may be refused. -/
theorem returns_natural_four {n : Nat} (h : refusal ∨ n < 0x100000000) :
    (natural 4).Returns refusal n := by
  by_cases hsmall : n < 0x100000000
  · exact reads_readNat_of_lt_four hsmall (Nat.le_refl 4)
  · exact .of_refused (h.resolve_right hsmall) (readNat_four_eq_none (Nat.le_of_not_lt hsmall))

/-- A number in a field of eight bytes. -/
theorem returns_natural_eight {n : Nat} (h : n < 0x10000000000000000) :
    (natural 8).Returns refusal n :=
  reads_readNat_of_lt_eight h (Nat.le_refl 8)

theorem unzigzag_zigzag (n : Int) : unzigzag (zigzag n) = n := by
  unfold unzigzag zigzag
  split_ifs <;> omega

theorem local_integer : integer.read.Local :=
  (local_readNat 8).map _

/-- Every integer is read back. -/
theorem returns_integer (n : Int64) : integer.Returns refusal n := by
  have hsize : zigzag n.toInt < 0x10000000000000000 := by
    have hleast := n.le_toInt
    have hgreatest := n.toInt_lt
    unfold zigzag
    split_ifs <;> omega
  have hread := (@returns_natural_eight refusal _ hsize).map
    fun place => Int64.ofInt (unzigzag place)
  rw [unzigzag_zigzag, Int64.ofInt_toInt] at hread
  exact hread

/-! ## Composite values -/

theorem local_boolean : boolean.read.Local := by
  refine local_readByte.bind fun b => ?_
  split
  · exact .pure _
  · exact .pure _
  · exact .failure

theorem returns_boolean (b : Bool) : boolean.Returns refusal b := by
  cases b
  · exact (reads_readByte 0).map fun _ => false
  · exact (reads_readByte 1).map fun _ => true

theorem local_string : string.read.Local := by
  refine (local_readNat 8).bind fun count => (local_readBytes count).bind fun bytes => ?_
  intro bs s rest h more
  change (Text.decodeUtf8? bytes).bind (fun s => some (s, bs)) = some (s, rest) at h
  change (Text.decodeUtf8? bytes).bind (fun s => some (s, bs ++ more)) = some (s, rest ++ more)
  obtain ⟨t, htext, hpair⟩ := Option.bind_eq_some_iff.mp h
  obtain ⟨rfl, rfl⟩ := Prod.mk.inj (Option.some.inj hpair)
  rw [htext]
  rfl

/-- A text is read back, if its length can be written. -/
theorem returns_string {s : String} (h : (Text.encodeUtf8 s).length < 0x10000000000000000) :
    string.Returns refusal s := by
  have hdecode : Reader.Reads refusal (StateT.lift (Text.decodeUtf8? (Text.encodeUtf8 s)))
      [] s := by
    refine .of_eq fun rest => ?_
    rw [Text.decodeUtf8?_encodeUtf8]
    rfl
  have hbytes := (@reads_readBytes refusal (Text.encodeUtf8 s)).bind
    (f := fun bytes => StateT.lift (Text.decodeUtf8? bytes)) hdecode
  rw [List.append_nil] at hbytes
  exact (returns_natural_eight h).bind hbytes

theorem extends_readMany {r s : Reader α} (h : r.Extends s) (count : Nat) :
    (readMany r count).Extends (readMany s count) := by
  induction count with
  | zero => exact .pure _
  | succ count ih => exact h.bind fun v => ih.map _

theorem extends_readList {r s : Reader α} (h : r.Extends s) :
    (readList r).Extends (readList s) :=
  Reader.Extends.bind (local_readNat 8) (extends_readMany h)

/-- Values that are written one after another are read back. -/
theorem reads_readMany {r : Reader α} {write : α → Bytes} {vs : List α}
    (h : ∀ v ∈ vs, r.Reads refusal (write v) v) :
    (readMany r vs.length).Reads refusal (vs.flatMap write) vs := by
  induction vs with
  | nil => exact .pure _
  | cons v vs ih =>
    obtain ⟨hv, hvs⟩ := List.forall_mem_cons.mp h
    exact hv.bind ((ih hvs).map _)

/-- A list is read back, if its length can be written. -/
theorem reads_readList {r : Reader α} {write : α → Bytes} {vs : List α}
    (hlength : vs.length < 0x10000000000000000) (h : ∀ v ∈ vs, r.Reads refusal (write v) v) :
    (readList r).Reads refusal (writeNat vs.length ++ vs.flatMap write) vs :=
  (returns_natural_eight hlength).bind (reads_readMany h)

namespace Codec

variable {c : Codec α} {d : Codec β}

theorem local_list (h : c.read.Local) : c.list.read.Local :=
  extends_readList h

theorem returns_list {vs : List α} (hlength : vs.length < 0x10000000000000000)
    (h : ∀ v ∈ vs, c.Returns refusal v) : c.list.Returns refusal vs :=
  reads_readList hlength h

theorem local_option (h : c.read.Local) : c.option.read.Local := by
  refine local_readByte.bind fun b => ?_
  split
  · exact .pure _
  · exact h.map _
  · exact .failure

theorem returns_option {v : Option α} (h : ∀ a, v = some a → c.Returns refusal a) :
    c.option.Returns refusal v := by
  cases v with
  | none => exact (reads_readByte 0).map fun _ => none
  | some a => exact (reads_readByte 1).bind ((h a rfl).map some)

theorem local_pair (hc : c.read.Local) (hd : d.read.Local) : (c.pair d).read.Local :=
  hc.bind fun _ => hd.map _

theorem returns_pair {a : α} {b : β} (ha : c.Returns refusal a) (hb : d.Returns refusal b) :
    (c.pair d).Returns refusal (a, b) :=
  ha.bind (hb.map _)

theorem local_via {toParts : β → α} {ofParts : α → β} (h : c.read.Local) :
    (c.via toParts ofParts).read.Local :=
  h.map _

theorem returns_via {toParts : β → α} {ofParts : α → β} {v : β}
    (hparts : ofParts (toParts v) = v) (h : c.Returns refusal (toParts v)) :
    (c.via toParts ofParts).Returns refusal v := by
  have hmap := Reader.Reads.map h ofParts
  rwa [hparts] at hmap

variable [DecidableEq α] {all : List α}

theorem local_oneOf (all : List α) : (oneOf all).read.Local := by
  refine (local_readNat 4).bind fun i => ?_
  split
  · exact .pure _
  · exact .failure

/-- A value without parts is read back, if it is one of those that are numbered. -/
theorem returns_oneOf {v : α} (hmem : v ∈ all) (hall : all.length < 0x10000) :
    (oneOf all).Returns refusal v := by
  have hplace : all.idxOf v < all.length := List.idxOf_lt_length_of_mem hmem
  have hread := @reads_readNat_of_lt_two refusal 4 _ (Nat.lt_trans hplace hall)
  have hfound : all[all.idxOf v]? = some v := by
    rw [List.getElem?_eq_getElem hplace, List.getElem_idxOf hplace]
  unfold Returns oneOf
  dsimp only
  rw [← List.append_nil (writeNat (all.idxOf v))]
  refine hread.bind ?_
  rw [hfound]
  exact .pure v

end Codec

end LineQuery.Store
