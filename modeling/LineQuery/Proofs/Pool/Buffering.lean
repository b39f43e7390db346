import LineQuery.Pool.Slot

/-! # Buffers before pipes

A pipe takes bytes as long as its reader stays, and after that no more. Bytes that are put into a
buffer before it keep their order. So as long as no write fails, what the pipe has taken and what
waits in the buffer are together all that was put in; and once a write has failed, the pipe has the
front of that, as much as it takes.
-/

namespace LineQuery.Pool

open LineQuery.Text (Bytes)

namespace Pieces

@[simp] theorem bytes_empty : empty.bytes = [] := rfl

@[simp] theorem bytes_push (b : Pieces) (bytes : Bytes) :
    (b.push bytes).bytes = b.bytes ++ bytes := by
  simp [Pieces.bytes, push]

theorem length_bytes (b : Pieces) : b.bytes.length = b.size := by
  rw [b.size_eq, bytes, List.length_flatten, List.length_flatten, List.map_reverse,
    List.sum_reverse]

end Pieces

namespace Pipe

/-- The pipe after bytes that it took. -/
def took (p : Pipe) (bytes : Bytes) : Pipe :=
  { p with taken := p.taken.push bytes }

/-- What a pipe with room for `room` bytes, if there is a limit, takes of some bytes. -/
def front (room : Option Nat) (bytes : Bytes) : Bytes :=
  match room with
  | none => bytes
  | some limit => bytes.take limit

/-- A pipe has room for some bytes, unless they are over its limit. -/
def HasRoom (room : Option Nat) (bytes : Bytes) : Prop :=
  ∀ limit, room = some limit → bytes.length ≤ limit

theorem front_of_hasRoom {room : Option Nat} {bytes : Bytes} (h : HasRoom room bytes) :
    front room bytes = bytes := by
  cases room with
  | none => rfl
  | some limit => exact List.take_of_length_le (h limit rfl)

/-- All of the bytes are in front exactly if there is room for them. -/
theorem front_eq_iff {room : Option Nat} {bytes : Bytes} :
    front room bytes = bytes ↔ HasRoom room bytes := by
  constructor
  · intro heq limit hlimit
    subst hlimit
    rw [← heq, front, List.length_take]
    exact Nat.min_le_left _ _
  · exact front_of_hasRoom

/-- Of some bytes, the pipe takes those in front that it has room for. -/
theorem prefix_front_iff {room : Option Nat} {some bytes : Bytes} (h : some <+: bytes) :
    some <+: front room bytes ↔ HasRoom room some := by
  cases room with
  | none =>
    refine iff_of_true h ?_
    intro limit hlimit
    exact nomatch hlimit
  | some limit =>
    constructor
    · rintro hfront _ ⟨⟩
      exact Nat.le_trans hfront.length_le (List.length_take_le limit bytes)
    · intro hroom
      exact List.prefix_take_iff.mpr ⟨h, hroom limit rfl⟩

/-- What comes of writing bytes to a pipe. -/
inductive Writes (p : Pipe) (bytes : Bytes) : Bool × Pipe → Prop where
  /-- The pipe takes all of them. -/
  | all (fits : HasRoom p.room (p.taken.bytes ++ bytes)) : Writes p bytes (true, p.took bytes)
  /-- The pipe takes those that there is room for, and its reader is gone. -/
  | some (limit : Nat) (room : p.room = some limit)
    (exceeds : limit < (p.taken.bytes ++ bytes).length) :
    Writes p bytes (false, p.took (bytes.take (limit - p.taken.bytes.length)))

theorem writes (p : Pipe) (bytes : Bytes) : Writes p bytes (p.write bytes) := by
  have hlength : (p.taken.bytes ++ bytes).length = bytes.length + p.taken.size := by
    rw [List.length_append, p.taken.length_bytes, Nat.add_comm]
  unfold write
  split
  · rename_i hroom
    refine .all ?_
    intro limit hlimit
    exact nomatch hroom.symm.trans hlimit
  · rename_i limit hroom
    split
    · rename_i hfits
      refine .all ?_
      intro limit' hlimit'
      obtain rfl := Option.some.inj (hroom.symm.trans hlimit')
      rw [hlength]
      exact hfits
    · rename_i hover
      rw [← p.taken.length_bytes]
      exact .some limit hroom (by omega)

/-- The bytes that a pipe has taken after a write that failed are the front of all bytes. -/
theorem bytes_took_take {p : Pipe} {limit : Nat} {bytes : Bytes}
    (hwithin : p.taken.bytes.length ≤ limit) :
    (p.took (bytes.take (limit - p.taken.bytes.length))).taken.bytes =
      (p.taken.bytes ++ bytes).take limit := by
  rw [took, Pieces.bytes_push, List.take_append, List.take_of_length_le hwithin]

end Pipe

/-! ## Putting bytes into a buffer -/

/-- A buffer and the pipe behind it, which has room for `room` bytes if it has a limit, and what
was put into them. -/
structure Holds (room : Option Nat) (bytes : Bytes) (b : Buffer) (p : Pipe) : Prop where
  room_eq : p.room = room
  bytes_eq : p.taken.bytes ++ b.bytes = bytes
  within : Pipe.HasRoom room p.taken.bytes

/-- What comes of putting bytes into a buffer, when `bytes` are all that were put into it. -/
inductive Puts (room : Option Nat) (bytes : Bytes) : Option Buffer × Pipe → Prop where
  /-- All bytes are in the pipe or wait in the buffer. -/
  | kept (b : Buffer) (p : Pipe) (holds : Holds room bytes b p)
    (small : b.bytes.length ≤ bufferCapacity) : Puts room bytes (some b, p)
  /-- The pipe has the front of the bytes, as much as it takes, and no buffer is left. -/
  | failed (p : Pipe) (limit : Nat) (room_eq : p.room = room) (limited : room = some limit)
    (bytes_eq : p.taken.bytes = bytes.take limit) (exceeds : limit < bytes.length) :
    Puts room bytes (none, p)

/-- Bytes that do not wait with others: they are put into the buffer, or past it if they fill
one. -/
def putAlone (b : Buffer) (p : Pipe) (bytes : Bytes) : Option Buffer × Pipe :=
  if bytes.length < bufferCapacity then (some (b.push bytes), p)
  else
    let (ok, p) := p.write bytes
    (if ok then some b else none, p)

/-- A buffer is written out when the next bytes do not fit in it. -/
theorem putBytes_eq (b : Buffer) (p : Pipe) (bytes : Bytes) :
    putBytes b p bytes =
      if bytes.length + b.size < bufferCapacity then (some (b.push bytes), p)
      else if bufferCapacity < bytes.length + b.size then
        if (p.write b.bytes).1 then putAlone .empty (p.write b.bytes).2 bytes
        else (none, (p.write b.bytes).2)
      else putAlone b p bytes := by
  unfold putBytes putAlone
  by_cases hfits : bytes.length + b.size < bufferCapacity
  · rw [if_pos hfits, if_pos hfits]
  · rw [if_neg hfits, if_neg hfits]
    by_cases hover : bufferCapacity < bytes.length + b.size
    · rw [if_pos hover, if_pos hover]
    · rw [if_neg hover, if_neg hover]
      rfl

namespace Holds

variable {room : Option Nat} {bytes more : Bytes} {b : Buffer} {p : Pipe}

/-- Bytes that fit wait in the buffer. -/
theorem push (h : Holds room bytes b p) (more : Bytes) :
    Holds room (bytes ++ more) (b.push more) p where
  room_eq := h.room_eq
  bytes_eq := by rw [Pieces.bytes_push, ← List.append_assoc, h.bytes_eq]
  within := h.within

/-- Bytes that the buffer cannot hold pass it by. -/
theorem putAlone (h : Holds room bytes b p)
    (hsmall : more.length < bufferCapacity → b.bytes.length + more.length ≤ bufferCapacity)
    (hempty : bufferCapacity ≤ more.length → b.bytes = []) :
    Puts room (bytes ++ more) (putAlone b p more) := by
  unfold Pool.putAlone
  by_cases hlength : more.length < bufferCapacity
  · rw [if_pos hlength]
    refine .kept _ _ (h.push more) ?_
    rw [Pieces.bytes_push, List.length_append]
    exact hsmall hlength
  -- bytes that fill a buffer on their own are only put where it is empty, and go to the pipe
  · have hnone : b.bytes = [] := hempty (Nat.not_lt.mp hlength)
    have htaken : p.taken.bytes = bytes := by
      rw [← h.bytes_eq, hnone, List.append_nil]
    have hwrites := p.writes more
    rw [if_neg hlength]
    generalize p.write more = outcome at hwrites ⊢
    cases hwrites with
    | all hfits =>
      rw [h.room_eq, htaken] at hfits
      refine .kept _ _ ⟨h.room_eq, ?_, ?_⟩ ?_
      · rw [Pipe.took, Pieces.bytes_push, hnone, List.append_nil, htaken]
      · rw [Pipe.took, Pieces.bytes_push, htaken]
        exact hfits
      · rw [hnone]
        exact Nat.zero_le _
    | some limit hlimit hover =>
      rw [h.room_eq] at hlimit
      refine .failed _ limit h.room_eq hlimit ?_ ?_
      · rw [Pipe.bytes_took_take (h.within limit hlimit), htaken]
      · rw [htaken] at hover
        exact hover

/-- Whatever is put into a buffer, nothing of it is lost or moved unless a write fails, and then
the pipe has the front of all bytes. -/
theorem putBytes (h : Holds room bytes b p) (more : Bytes) :
    Puts room (bytes ++ more) (putBytes b p more) := by
  rw [putBytes_eq]
  by_cases hfits : more.length + b.size < bufferCapacity
  · rw [if_pos hfits]
    refine .kept _ _ (h.push more) ?_
    rw [Pieces.bytes_push, List.length_append, b.length_bytes]
    omega
  · rw [if_neg hfits]
    by_cases hover : bufferCapacity < more.length + b.size
    · -- the buffer is written first
      rw [if_pos hover]
      have hwrites := p.writes b.bytes
      generalize p.write b.bytes = outcome at hwrites ⊢
      cases hwrites with
      | all hroom =>
        rw [if_pos rfl]
        rw [h.room_eq, h.bytes_eq] at hroom
        have hflushed : Holds room bytes .empty (p.took b.bytes) := by
          refine ⟨h.room_eq, ?_, ?_⟩
          · rw [Pipe.took, Pieces.bytes_push, Pieces.bytes_empty, List.append_nil, h.bytes_eq]
          · rw [Pipe.took, Pieces.bytes_push, h.bytes_eq]
            exact hroom
        refine hflushed.putAlone ?_ ?_
        · intro hlength
          rw [Pieces.bytes_empty, List.length_nil]
          omega
        · intro _
          rfl
      | some limit hlimit hlost =>
        rw [if_neg Bool.false_ne_true]
        rw [h.room_eq] at hlimit
        rw [h.bytes_eq] at hlost
        refine .failed _ limit h.room_eq hlimit ?_ ?_
        · -- none of the new bytes is among those that the pipe takes
          rw [Pipe.bytes_took_take (h.within limit hlimit), h.bytes_eq,
            List.take_append_of_le_length (Nat.le_of_lt hlost)]
        · rw [List.length_append]
          omega
    · rw [if_neg hover]
      refine h.putAlone ?_ ?_
      · intro _
        rw [b.length_bytes]
        omega
      · intro hlength
        -- so many bytes and those in the buffer are no more than it holds, so it has none
        have hzero : b.bytes.length = 0 := by
          rw [b.length_bytes]
          omega
        exact List.length_eq_zero_iff.mp hzero

end Holds

end LineQuery.Pool
