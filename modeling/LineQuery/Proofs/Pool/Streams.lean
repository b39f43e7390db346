import LineQuery.Proofs.Pool.Buffering
import LineQuery.Proofs.Pool.HandingOut

/-! # What reaches a worker

A slot puts its lines, each with a separator behind it, into a buffer before the pipe of its
worker. Whatever the slot counts as sent or dropped, in the end the pipe has the front of these
bytes, as much as it takes. What counts as sent and is not in the pipe is no more than a buffer
holds, and a slot whose pipe has room for everything drops nothing and loses nothing.
-/

namespace LineQuery.Pool

open LineQuery.Text (Bytes)

/-- The bytes of lines with a separator behind each. -/
def joinLines (separator : Bytes) (lines : List String) : Bytes :=
  lines.flatMap fun line => Text.encodeUtf8 line ++ separator

theorem joinLines_append (separator : Bytes) (lines more : List String) :
    joinLines separator (lines ++ more) = joinLines separator lines ++ joinLines separator more :=
  List.flatMap_append

theorem joinLines_concat (separator : Bytes) (lines : List String) (line : String) :
    joinLines separator (lines ++ [line]) =
      joinLines separator lines ++ Text.encodeUtf8 line ++ separator := by
  rw [joinLines_append, List.append_assoc, joinLines, joinLines, List.flatMap_singleton]

namespace Slot

/-- What has become of the lines that a slot was to send, where the pipe of its worker has room for
`room` bytes if it has a limit. -/
inductive Fed (room : Option Nat) (separator : Bytes) (lines : List String) (s : Slot) : Prop where
  /-- All lines have been sent; they are in the pipe or wait in the buffer. -/
  | alive (b : Buffer) (stdin : s.stdin = some b)
    (holds : Holds room (joinLines separator lines) b s.pipe)
    (small : b.bytes.length ≤ bufferCapacity) (sent_eq : s.sent = lines.length)
    (dropped_eq : s.dropped = 0)
  /-- A write has failed. What was sent before fits in the pipe and one buffer. -/
  | dead (limit : Nat) (stdin : s.stdin = none) (limited : room = some limit)
    (bytes_eq : s.pipe.taken.bytes = (joinLines separator lines).take limit)
    (exceeds : limit < (joinLines separator lines).length) (sent_le : s.sent ≤ lines.length)
    (small : (joinLines separator (lines.take s.sent)).length ≤ limit + bufferCapacity)

variable {room : Option Nat} {separator : Bytes} {lines : List String} {s : Slot}

theorem fed_start (number : Nat) (worker : Worker) :
    (Slot.start number worker ⟨.empty, room⟩).Fed room separator [] :=
  .alive .empty rfl ⟨rfl, rfl, fun _ _ => Nat.zero_le _⟩ (Nat.zero_le _) rfl rfl

/-- What is behind the limit of a pipe makes no difference to what the pipe takes. -/
theorem take_joinLines_concat {limit : Nat} (hover : limit < (joinLines separator lines).length)
    (line : String) :
    (joinLines separator (lines ++ [line])).take limit = (joinLines separator lines).take limit ∧
      limit < (joinLines separator (lines ++ [line])).length := by
  rw [joinLines_append]
  refine ⟨List.take_append_of_le_length (Nat.le_of_lt hover), ?_⟩
  rw [List.length_append]
  omega

/-- A slot whose line cannot be written is dead. -/
theorem Fed.lost {b : Buffer} {limit : Nat} {line : String} {p : Pipe} {given : Bytes}
    (hholds : Holds room (joinLines separator lines) b s.pipe)
    (hsmall : b.bytes.length ≤ bufferCapacity) (hsent : s.sent = lines.length)
    (hlimit : room = some limit) (hbytes : p.taken.bytes = given.take limit)
    (hover : limit < given.length)
    (hgiven : given <+: joinLines separator (lines ++ [line])) :
    ({ s with pipe := p }.drop).Fed room separator (lines ++ [line]) := by
  obtain ⟨more, hmore⟩ := hgiven
  refine .dead limit rfl hlimit ?_ ?_ ?_ ?_
  · rw [← hmore, List.take_append_of_le_length (Nat.le_of_lt hover)]
    exact hbytes
  · rw [← hmore, List.length_append]
    omega
  · show s.sent ≤ (lines ++ [line]).length
    rw [hsent, List.length_append]
    exact Nat.le_add_right _ _
  · show (joinLines separator ((lines ++ [line]).take s.sent)).length ≤ limit + bufferCapacity
    rw [hsent, List.take_left, ← hholds.bytes_eq, List.length_append]
    exact Nat.add_le_add (hholds.within limit hlimit) hsmall

theorem Fed.send (h : s.Fed room separator lines) (line : String) :
    (s.send (Text.encodeUtf8 line) separator).2.Fed room separator (lines ++ [line]) := by
  cases h with
  | dead limit hstdin hlimit hbytes hover hle hsmall =>
    -- a dead slot drops the line, and the pipe has the front of the longer input as well
    have hsend : (s.send (Text.encodeUtf8 line) separator).2 = s.drop := by
      rw [Slot.send, hstdin]
    obtain ⟨htake, hover'⟩ := take_joinLines_concat hover line
    rw [hsend]
    refine .dead limit rfl hlimit (hbytes.trans htake.symm) hover' ?_ ?_
    · show s.sent ≤ (lines ++ [line]).length
      rw [List.length_append]
      exact Nat.le_add_right_of_le hle
    · show (joinLines separator ((lines ++ [line]).take s.sent)).length ≤ limit + bufferCapacity
      rw [List.take_append_of_le_length hle]
      exact hsmall
  | alive b hstdin hholds hsmall hsent hdropped =>
    have hconcat := joinLines_concat separator lines line
    -- the line is put first, then the separator; either may be the first to be lost
    have hline := hholds.putBytes (Text.encodeUtf8 line)
    unfold Slot.send
    rw [hstdin]
    dsimp only
    generalize putBytes b s.pipe (Text.encodeUtf8 line) = outcome at hline ⊢
    cases hline with
    | failed p limit hroom hlimit hbytes hover =>
      exact .lost hholds hsmall hsent hlimit hbytes hover ⟨separator, hconcat.symm⟩
    | kept b' p hholds' hsmall' =>
      have hseparator := hholds'.putBytes separator
      dsimp only
      generalize putBytes b' p separator = outcome at hseparator ⊢
      cases hseparator with
      | failed p' limit hroom hlimit hbytes hover =>
        exact .lost hholds hsmall hsent hlimit hbytes hover ⟨[], by rw [List.append_nil, hconcat]⟩
      | kept b'' p' hholds'' hsmall'' =>
        refine .alive b'' rfl (hconcat ▸ hholds'') hsmall'' ?_ hdropped
        show s.sent + 1 = (lines ++ [line]).length
        rw [hsent, List.length_append]
        rfl

/-- What holds of a slot for some lines holds for these and all that it is to send after them. -/
theorem Fed.sendAll (h : s.Fed room separator lines) (more : List String) :
    (s.sendAll separator more).Fed room separator (lines ++ more) := by
  induction more generalizing s lines with
  | nil =>
    rw [List.append_nil]
    exact h
  | cons line more ih =>
    have hrest := ih (h.send line)
    rw [List.append_assoc] at hrest
    exact hrest

/-- When the input of a slot has been closed, the pipe has the front of the bytes. -/
theorem Fed.finish (h : s.Fed room separator lines) :
    s.finish.1.pipe.taken.bytes = Pipe.front room (joinLines separator lines) := by
  show s.close.pipe.taken.bytes = _
  unfold close
  cases h with
  | dead limit hstdin hlimit hbytes =>
    rw [hstdin, hlimit]
    exact hbytes
  | alive b hstdin hholds =>
    have hwrites := s.pipe.writes b.bytes
    rw [hstdin]
    dsimp only
    generalize s.pipe.write b.bytes = outcome at hwrites ⊢
    cases hwrites with
    | all hfits =>
      rw [hholds.room_eq, hholds.bytes_eq] at hfits
      rw [Pipe.took, Pieces.bytes_push, hholds.bytes_eq, Pipe.front_of_hasRoom hfits]
    | some limit hlimit hover =>
      rw [hholds.room_eq] at hlimit
      rw [Pipe.bytes_took_take (hholds.within limit hlimit), hholds.bytes_eq, hlimit]
      rfl

/-- What counts as sent fits in the pipe and one buffer. -/
theorem Fed.length_sent_le (h : s.Fed room separator lines) :
    (joinLines separator (lines.take s.sent)).length ≤
      (Pipe.front room (joinLines separator lines)).length + bufferCapacity := by
  cases h with
  | dead limit _ hlimit _ hover _ hsmall =>
    rw [hlimit, Pipe.front, List.length_take, Nat.min_eq_left (Nat.le_of_lt hover)]
    exact hsmall
  | alive b _ hholds hsmall hsent =>
    rw [hsent, List.take_length]
    cases hroom : room with
    | none => exact Nat.le_add_right _ _
    | some limit =>
      have hwithin := hholds.within limit hroom
      have hlength := congrArg List.length hholds.bytes_eq
      rw [List.length_append] at hlength
      rw [Pipe.front, List.length_take]
      omega

/-- A slot drops nothing if the pipe has room for all its lines. -/
theorem Fed.dropped_eq (h : s.Fed room separator lines)
    (hroom : Pipe.HasRoom room (joinLines separator lines)) : s.dropped = 0 := by
  cases h with
  | dead limit _ hlimit _ hover => exact absurd (hroom limit hlimit) (Nat.not_le.mpr hover)
  | alive _ _ _ _ _ hdropped => exact hdropped

theorem sendAll_worker (s : Slot) (separator : Bytes) (lines : List String) :
    (s.sendAll separator lines).worker = s.worker := by
  induction lines generalizing s with
  | nil => rfl
  | cons line lines ih =>
    have hsends := s.sends (Text.encodeUtf8 line) separator
    rw [sendAll_cons, ih]
    generalize s.send (Text.encodeUtf8 line) separator = outcome at hsends ⊢
    cases hsends with
    | sent => rfl
    | lost => rfl

theorem finish_response (s : Slot) :
    s.finish.2 = s.worker s.finish.1.pipe.taken.bytes := by
  show s.close.worker s.close.pipe.taken.bytes = s.worker s.close.pipe.taken.bytes
  have hworker : s.close.worker = s.worker := by
    unfold close
    split
    · rfl
    · rfl
  rw [hworker]

/-- The bytes and the counts of a slot at the end of a pass in which it was to send some lines. -/
theorem after_delivers (number : Nat) (worker : Worker) (room : Option Nat) (separator : Bytes)
    (lines : List String) :
    let s := (Slot.start number worker ⟨.empty, room⟩).after separator lines
    s.pipe.taken.bytes = Pipe.front room (joinLines separator lines) ∧
      (joinLines separator (lines.take s.sent)).length ≤
        s.pipe.taken.bytes.length + bufferCapacity ∧
      (Pipe.HasRoom room (joinLines separator lines) → s.dropped = 0) := by
  intro s
  have hstart : (Slot.start number worker ⟨.empty, room⟩).Fed room separator [] :=
    fed_start number worker
  have hfed := hstart.sendAll lines
  obtain ⟨-, hsent, hdropped⟩ :=
    finish_counts ((Slot.start number worker ⟨.empty, room⟩).sendAll separator lines)
  rw [List.nil_append] at hfed
  refine ⟨hfed.finish, ?_, ?_⟩
  · show (joinLines separator (lines.take s.sent)).length ≤
      s.pipe.taken.bytes.length + bufferCapacity
    have hbytes : s.pipe.taken.bytes = _ := hfed.finish
    have hcount : s.sent = _ := hsent
    rw [hbytes, hcount]
    exact hfed.length_sent_le
  · intro hroom
    exact hdropped.trans (hfed.dropped_eq hroom)

/-- A worker that reads to its end is given every line that its slot is to send. -/
theorem finish_start (number : Nat) (worker : Worker) (separator : Bytes) (lines : List String) :
    let ended := ((Slot.start number worker ⟨.empty, none⟩).sendAll separator lines).finish
    ended.2 = worker (joinLines separator lines) ∧ ended.1.number = number ∧
      ended.1.sent = lines.length ∧ ended.1.dropped = 0 := by
  intro ended
  obtain ⟨hbytes, -, hdropped⟩ := after_delivers number worker none separator lines
  obtain ⟨-, hcounts⟩ := after_start number worker ⟨.empty, none⟩ separator lines
  have hnone := hdropped nofun
  refine ⟨?_, after_number _ separator lines, ?_, hnone⟩
  · rw [finish_response, sendAll_worker]
    exact congrArg worker hbytes
  · rw [hnone, Nat.add_zero] at hcounts
    exact hcounts

end Slot

/-- What is offered to a worker are the lines that are dealt to its place. -/
theorem offered_eq_joinLines {n : Nat} (hn : 0 < n) (k : Nat) (separator : Bytes)
    (source : List SourceItem) :
    offered n k separator source =
      joinLines separator (dealt n k 0 (linesBeforeError source)) := by
  have hshare := share_eq_dealt hn k 0 (linesBeforeError source)
  rw [Nat.zero_mod] at hshare
  rw [offered, hshare, joinLines]

/-- Whatever the other workers of a pool do, one that reads to its end responds to all that it is
offered, and no line of its slot is dropped. -/
theorem getElem?_finish_distribute {pool : List (Worker × Pipe)} {k : Nat} {worker : Worker}
    (hworker : pool[k]? = some (worker, ⟨.empty, none⟩)) (separator : Bytes)
    (source : List SourceItem) :
    ∃ s : Slot, ((distribute separator (freshSlots pool) 0 source).1.map Slot.finish)[k]? =
        some (s, worker (offered pool.length k separator source)) ∧
      s.number = k + 1 ∧ s.sent = (dealt pool.length k 0 (linesBeforeError source)).length ∧
      s.dropped = 0 := by
  have hpool : 0 < pool.length := by
    have hk : k < pool.length := (List.getElem?_eq_some_iff.mp hworker).1
    omega
  have hdealt := getElem?_distribute separator (length_freshSlots.symm ▸ hpool) 0 k source
  rw [Nat.zero_mod, length_freshSlots, getElem?_freshSlots, hworker] at hdealt
  obtain ⟨hresponse, hcounts⟩ := Slot.finish_start (k + 1) worker separator
    (dealt pool.length k 0 (linesBeforeError source))
  refine ⟨_, ?_, hcounts⟩
  rw [List.getElem?_map, hdealt, offered_eq_joinLines hpool, ← hresponse]
  rfl

end LineQuery.Pool
