import LineQuery.Proofs.Store.Plans
import LineQuery.Store.Image

/-! # Artifact files are read back

A file image gives the value it was written for to the tool that wrote it. Nothing else is got
out of the front of an image: the first bytes never promise more than the header has, a header
is not read off less than it is, and neither is a payload. So no checksum is needed to tell that
a file has been cut.
-/

namespace LineQuery.Store

open LineQuery.Digest (ContentHash)
open LineQuery.Text (Bytes)

variable {α : Type} {refusal : Prop}

/-- The number that the lowest bytes of a number give is not greater than it. -/
theorem ofLittleEndian_littleEndian_le (width n : Nat) :
    ofLittleEndian (littleEndian width n) ≤ n := by
  induction width generalizing n with
  | zero => exact Nat.zero_le n
  | succ width ih =>
    have hrest := ih (n / 256)
    rw [littleEndian, ofLittleEndian, Text.toNat_ofNat_of_lt (by omega)]
    omega

/-! ## Headers -/

namespace Header

/-- The length of a header has room in front of it. -/
def Fits (h : Header) : Prop := (codec.write h).length < fourBytes

instance (h : Header) : Decidable h.Fits := inferInstanceAs (Decidable (_ < _))

theorem local_codec : codec.read.Local :=
  Codec.local_via (Codec.local_pair (local_fixedBytes 4) (Codec.local_pair (local_readNat 4)
    (Codec.local_pair local_string (local_fixedBytes 16))))

theorem returns_ofPayload {tool : String} (h : TextFits tool) (payload : Bytes) :
    codec.Returns refusal (ofPayload tool payload) :=
  Codec.returns_via rfl (Codec.returns_pair (returns_fixedBytes _)
    (Codec.returns_pair (returns_natural_four (.inr (by decide : currentFormat < fourBytes)))
      (Codec.returns_pair (returns_string h) (returns_fixedBytes _))))

/-- The checksum stands at the end of a header. -/
theorem write_eq (h : Header) :
    codec.write h = h.magic.toList ++ (writeNat h.format ++ (string.write h.tool ++
      h.checksum.bytes.toList)) := rfl

/-- The version of the tool is a part of the header. -/
theorem Fits.tool {h : Header} (hfits : h.Fits) : TextFits h.tool := by
  have htool : string.write h.tool =
      writeNat (Text.encodeUtf8 h.tool).length ++ Text.encodeUtf8 h.tool := rfl
  unfold Fits at hfits
  rw [write_eq, htool] at hfits
  simp only [List.length_append] at hfits
  have hroom : fourBytes ≤ eightBytes := by decide
  unfold TextFits
  omega

end Header

namespace Image

variable {c : Codec α} {tool : String} {v : α} {raw payload : Bytes} {h : Header}

/-! ## What an image gives -/

/-- When the value of a payload is given. -/
theorem open?_eq_ok_iff : open? c tool h payload = .ok v ↔
    h = .ofPayload tool payload ∧ ∃ rest, c.read payload = some (v, rest) := by
  have hheader : h = .ofPayload tool payload ↔
      h.magic = Header.magicBytes ∧ h.format = Header.currentFormat ∧ h.tool = tool ∧
        ContentHash.ofBytes payload = h.checksum := by
    cases h
    simp only [Header.ofPayload, Header.mk.injEq]
    exact and_congr_right fun _ => and_congr_right fun _ => and_congr_right fun _ => eq_comm
  rw [hheader]
  unfold open?
  generalize ContentHash.ofBytes payload = found
  dsimp only
  split_ifs with hmagic hformat htool hchecksum
  · exact iff_of_false nofun fun hall => hmagic hall.1.1
  · exact iff_of_false nofun fun hall => hformat hall.1.2.1
  · exact iff_of_false nofun fun hall => htool hall.1.2.2.1
  · exact iff_of_false nofun fun hall => hchecksum hall.1.2.2.2
  · rw [ne_eq, Decidable.not_not] at hmagic hformat htool hchecksum
    cases hread : c.read payload with
    | none => exact iff_of_false nofun fun hall => nomatch hall.2
    | some read =>
      obtain ⟨w, rest⟩ := read
      constructor
      · intro hvalue
        obtain rfl : w = v := Except.ok.inj hvalue
        exact ⟨⟨hmagic, hformat, htool, hchecksum⟩, rest, rfl⟩
      · rintro ⟨-, _, hvalue⟩
        obtain ⟨rfl, -⟩ := Prod.mk.inj (Option.some.inj hvalue)
        rfl

/-- When the value in a file is given: the file can be cut where its first bytes say, and of its
two parts the first is read as the header of the second. -/
theorem decode_eq_ok_iff : decode c tool raw = .ok v ↔
    ∃ first header payload rest, raw = first ++ (header ++ payload) ∧
      first.length = lengthBytes ∧ header.length = ofLittleEndian first ∧
      Header.codec.read header = some (.ofPayload tool payload, rest) ∧
      ∃ rest, c.read payload = some (v, rest) := by
  unfold decode
  constructor
  · intro hdecode
    split_ifs at hdecode with hshort
    dsimp only at hdecode
    split_ifs at hdecode with htruncated
    split at hdecode
    · exact nomatch hdecode
    · rename_i found rest hread
      obtain ⟨rfl, hpayload⟩ := open?_eq_ok_iff.mp hdecode
      refine ⟨_, _, _, rest, ?_, List.length_take_of_le (Nat.le_of_not_lt hshort),
        List.length_take_of_le (Nat.le_of_not_lt htruncated), hread, hpayload⟩
      rw [List.take_append_drop, List.take_append_drop]
  · rintro ⟨first, header, payload, rest, rfl, hfirst, hsize, hread, hpayload⟩
    rw [if_neg (by rw [List.length_append]; omega), List.take_left' hfirst,
      List.drop_left' hfirst]
    dsimp only
    rw [if_neg (by rw [List.length_append]; omega), List.take_left' hsize, List.drop_left' hsize,
      hread]
    exact open?_eq_ok_iff.mpr ⟨rfl, hpayload⟩

/-- The image of a file gives the value it was written for. -/
theorem decode_encode (hv : c.Returns False v)
    (hheader : (Header.ofPayload tool (c.write v)).Fits) :
    decode c tool (encode c tool v) = .ok v := by
  have htool : TextFits tool := hheader.tool
  have hread := (Header.returns_ofPayload htool (c.write v)).eq_some []
  have hvalue := hv.eq_some []
  rw [List.append_nil] at hread hvalue
  exact decode_eq_ok_iff.mpr ⟨_, _, _, [], by rw [encode, List.append_assoc],
    length_littleEndian _ _, (ofLittleEndian_littleEndian hheader).symm, hread, [], hvalue⟩

/-- Every compiled program with its warnings, and every text, is given back by a file that holds
it. -/
theorem artifact_round_trip (tool : String) :
    (∀ v : Compilation, v.Fits (· < fourBytes) →
        (Header.ofPayload tool (compilation.write v)).Fits →
        decode compilation tool (encode compilation tool v) = .ok v) ∧
      ∀ s : String, TextFits s → (Header.ofPayload tool (string.write s)).Fits →
        decode string tool (encode string tool s) = .ok s := by
  constructor
  · intro v hv hheader
    exact decode_encode (returns_compilation (fun _ hn => .inr hn) hv) hheader
  · intro s hs hheader
    exact decode_encode (returns_string hs) hheader

/-- A program with nested values in it and a warning about it, and a text of two bytes, come back
from their files. -/
theorem artifact_round_trip_nested :
    let at1 : Position := ⟨1, 70000⟩
    let nested : Value := .list [.int (-1), .list [.str "é", .bool true]]
    let main : Plan :=
      { slots := 300, params := [0], input := ⟨1, some 2⟩
        steps := [.bind 3 (.const nested at1)], select := .unary .neg (.slot 1 at1) at1 }
    let warning : Diagnostic :=
      { severity := .warning, code := .unusedBinding, message := "unused", position := at1 }
    let v : Compilation := ⟨⟨1, ["tsv"], [⟨"main", ["n"], main⟩]⟩, [warning]⟩
    decode compilation "0.3.0" (encode compilation "0.3.0" v) = .ok v ∧
      decode string "0.3.0" (encode string "0.3.0" "é") = .ok "é" := by
  intro at1 nested main warning v
  have hat : at1.Fits (· < fourBytes) := ⟨by decide, by decide⟩
  have hnested : nested.Fits := by
    simp only [nested, Value.Fits, Value.AllFit]
    decide +kernel
  have hmain : main.Fits (· < fourBytes) := by
    refine ⟨by decide, by decide, by decide, ⟨by decide, ?_⟩, by decide, ?_, ?_⟩
    · intro i hi
      obtain rfl : 2 = i := Option.some.inj hi
      decide
    · intro step hstep
      obtain rfl := List.mem_singleton.mp hstep
      exact ⟨by decide, hnested, hat⟩
    · exact ⟨⟨by decide, hat⟩, hat⟩
  have hv : v.Fits (· < fourBytes) := by
    refine ⟨by decide, ⟨by decide, by decide +kernel⟩, by decide, ?_, by decide, ?_⟩
    · intro e he
      obtain rfl := List.mem_singleton.mp he
      exact ⟨by decide +kernel, ⟨by decide, by decide +kernel⟩, hmain⟩
    · intro d hd
      obtain rfl := List.mem_singleton.mp hd
      exact ⟨by decide, by decide +kernel, hat, by decide, ⟨by decide, by decide⟩,
        ⟨by decide, by decide⟩⟩
  obtain ⟨hcompilation, hstring⟩ := artifact_round_trip "0.3.0"
  exact ⟨hcompilation v hv (by decide +kernel), hstring "é" (by decide +kernel) (by decide +kernel)⟩

/-! ## The front of an image -/

/-- Of the fronts of an image only the image itself gives a value, and that is the value it was
written for, given to the tool that wrote it. -/
theorem eq_encode_of_decode (hlocal : c.read.Local) (hv : c.Returns refusal v)
    (htool : TextFits tool) (hfront : raw <+: encode c tool v) {tool' : String} {w : α}
    (hdecode : decode c tool' raw = .ok w) :
    raw = encode c tool v ∧ tool' = tool ∧ w = v := by
  obtain ⟨first, header, payload, rest, rfl, hfirst, hsize, hread, _, hvalue⟩ :=
    decode_eq_ok_iff.mp hdecode
  have hwhole : encode c tool v = littleEndian lengthBytes
      (Header.codec.write (.ofPayload tool (c.write v))).length ++
        (Header.codec.write (.ofPayload tool (c.write v)) ++ c.write v) := by
    rw [encode, List.append_assoc]
  rw [hwhole] at hfront ⊢
  generalize hwritten : Header.codec.write (.ofPayload tool (c.write v)) = written at hfront ⊢
  obtain rfl : first = littleEndian lengthBytes written.length := by
    have hlength : first.length = (littleEndian lengthBytes written.length).length := by
      rw [hfirst, length_littleEndian]
    have hparts := (List.prefix_append first _).trans hfront
    exact (List.prefix_of_prefix_length_le hparts (List.prefix_append _ _)
      (Nat.le_of_eq hlength)).eq_of_length hlength
  rw [List.prefix_append_right_inj] at hfront
  -- the first bytes cannot promise more than was written, so a whole header is all of it
  have hshort : header.length ≤ written.length := by
    rw [hsize]
    exact ofLittleEndian_littleEndian_le _ _
  have hheader : header <+: written :=
    List.prefix_of_prefix_length_le ((List.prefix_append header payload).trans hfront)
      (List.prefix_append _ _) hshort
  obtain ⟨hfound, rfl⟩ : Header.ofPayload tool' payload = .ofPayload tool (c.write v) ∧
      header = written := by
    rw [← hwritten] at hheader ⊢
    exact (@Header.returns_ofPayload refusal _ htool _).eq_of_front
      Header.local_codec hheader hread
  rw [List.prefix_append_right_inj] at hfront
  obtain ⟨rfl, rfl⟩ := hv.eq_of_front hlocal hfront hvalue
  exact ⟨rfl, congrArg Header.tool hfound, rfl⟩

end Image

end LineQuery.Store
