import LineQuery.Pool.LineSink
import LineQuery.Proofs.Pool.Destinations
import Mathlib.Data.List.Basic

/-! # What a line sink writes

A sink writes the lines before the first error of its source or the first write that fails, joined
with the separator. It pulls no item behind the one that stops it, and it flushes once.
-/

namespace LineQuery.Pool.LineSink

open LineQuery.Text (Bytes encodeUtf8)

variable {ε : Type} {separator : Bytes} {count : Nat} {d : Destination}
  {items rest left : List (Except ε String)} {written : List String}

/-! ## Records of lines -/

/-- The writes of lines behind `count` others: one record for each line, with the separator before
it. An empty record takes no write. -/
def writesFrom (separator : Bytes) (count : Nat) (lines : List String) : List Bytes :=
  (lines.mapIdx fun i line => record separator (count + i) line).filter (· ≠ [])

/-- A line adds one write, or none if there are no bytes in its record. -/
theorem writesFrom_cons (separator : Bytes) (count : Nat) (line : String) (lines : List String) :
    writesFrom separator count (line :: lines) =
      [record separator count line].filter (· ≠ []) ++ writesFrom separator (count + 1) lines := by
  rw [writesFrom, List.mapIdx_cons, ← List.singleton_append, List.filter_append, Nat.add_zero,
    writesFrom]
  simp only [Nat.add_assoc, Nat.add_comm 1]

theorem flatten_writesFrom_cons (separator : Bytes) (count : Nat) (line : String)
    (lines : List String) :
    (writesFrom separator count (line :: lines)).flatten =
      record separator count line ++ (writesFrom separator (count + 1) lines).flatten := by
  rw [writesFrom_cons, List.flatten_append, List.flatten_filter_ne_nil, List.flatten_singleton]

/-- Behind a first line, each line comes with the separator before it. -/
theorem flatten_writesFrom_succ (separator : Bytes) (count : Nat) (first : Bytes)
    (lines : List String) :
    first ++ (writesFrom separator (count + 1) lines).flatten =
      separator.intercalate (first :: lines.map encodeUtf8) := by
  induction lines generalizing count first with
  | nil => exact (List.append_nil first).trans List.intercalate_singleton.symm
  | cons line lines ih =>
    have hrecord : record separator (count + 1) line = separator ++ encodeUtf8 line := by
      rw [record, if_neg (Nat.succ_ne_zero count)]
    rw [flatten_writesFrom_cons, hrecord, List.append_assoc, ih, List.map_cons,
      List.intercalate_cons_cons, List.append_assoc]

/-- The bytes of the writes are the lines with the separator between them. -/
theorem flatten_writesFrom_zero (separator : Bytes) (lines : List String) :
    (writesFrom separator 0 lines).flatten = separator.intercalate (lines.map encodeUtf8) := by
  cases lines with
  | nil => exact List.intercalate_nil.symm
  | cons line lines =>
    have hrecord : record separator 0 line = encodeUtf8 line := by
      rw [record, if_pos rfl, List.nil_append]
    rw [flatten_writesFrom_cons, hrecord, flatten_writesFrom_succ, List.map_cons]

/-! ## Where a sink stops -/

/-- Why a sink stops behind `count` lines: what is left of its items then, what it leaves of them,
and what it says. The destination is as it is at that moment. -/
inductive Stops (separator : Bytes) (count : Nat) (d : Destination) :
    List (Except ε String) → List (Except ε String) → Except (SinkError ε) Nat → Prop where
  /-- There are no more items. -/
  | ended : Stops separator count d [] [] (.ok count)
  /-- The source gives an error. -/
  | source (e : ε) (rest : List (Except ε String)) :
    Stops separator count d (.error e :: rest) rest (.error (.source e))
  /-- The source gives a line, and the write of its record fails. -/
  | refused (line : String) (rest : List (Except ε String))
    (nonempty : record separator count line ≠ []) (closed : ¬ d.Accepts 0) :
    Stops separator count d (.ok line :: rest) rest (.error (.output .closed))

/-- A sink that goes on behind `count` lines writes some lines, each of whose writes succeeds, and
then it stops. -/
theorem writeFrom_stops (separator : Bytes) (count : Nat) (d : Destination)
    (items : List (Except ε String)) :
    ∃ written left, items = written.map .ok ++ left ∧
      (writeFrom separator count d items).destination =
        d.taking (writesFrom separator count written) ∧
      (∀ i < (writesFrom separator count written).length, d.Accepts i) ∧
      Stops separator (count + written.length) (d.taking (writesFrom separator count written)) left
        (writeFrom separator count d items).rest (writeFrom separator count d items).result := by
  induction items generalizing count d with
  | nil => exact ⟨[], [], rfl, rfl, nofun, .ended⟩
  | cons item items ih =>
    cases item with
    | error e => exact ⟨[], .error e :: items, rfl, rfl, nofun, .source e items⟩
    | ok line =>
      rw [writeFrom]
      rcases d.write_cases (record separator count line) with ⟨hwrite, haccepts⟩ |
        ⟨hwrite, hnonempty, hclosed⟩
      · -- the record is taken, and the sink goes on with one more line
        rw [hwrite]
        obtain ⟨written, left, rfl, hdestination, hwrites, hstops⟩ :=
          ih (count + 1) (d.taking ([record separator count line].filter (· ≠ [])))
        rw [Destination.taking_taking, ← writesFrom_cons] at hdestination hstops
        rw [Nat.add_assoc, Nat.add_comm 1] at hstops
        refine ⟨line :: written, left, rfl, hdestination, ?_, hstops⟩
        rw [writesFrom_cons, List.length_append]
        intro i hi
        by_cases hfirst : i < ([record separator count line].filter (· ≠ [])).length
        · exact haccepts i hfirst
        · have hlater := hwrites (i - ([record separator count line].filter (· ≠ [])).length)
            (by omega)
          rw [Destination.accepts_taking] at hlater
          rwa [Nat.add_sub_cancel' (Nat.le_of_not_lt hfirst)] at hlater
      -- the record is refused, and the sink stops in front of its line
      · rw [hwrite]
        exact ⟨[], .ok line :: items, rfl, rfl, nofun, .refused line items hnonempty hclosed⟩

/-! ## The whole writing -/

/-- What a sink says once it has flushed: an error that stopped it, else one of the flush. -/
def afterFlush (d : Destination) : Except (SinkError ε) Nat → Except (SinkError ε) Nat
  | .error e => .error e
  | .ok count => if d.flushFails then .error (.output .flush) else .ok count

/-- A sink flushes once, and leaves its destination otherwise as it was when it stopped. -/
theorem write_eq (separator : Bytes) (d : Destination) (items : List (Except ε String)) :
    let w := writeFrom separator 0 d items
    write separator d items =
      ⟨afterFlush w.destination w.result, w.rest,
        { w.destination with flushes := w.destination.flushes + 1 }⟩ := by
  dsimp only [write]
  obtain ⟨result, rest, ⟨records, flushes, closesAfter, flushFails⟩⟩ :=
    writeFrom separator 0 d items
  cases result with
  | error e => rfl
  | ok count => cases flushFails <;> rfl

/-- A sink has written some lines of its items, joined, and then stopped. -/
structure WritesJoined (separator : Bytes) (d : Destination) (items : List (Except ε String))
    (written : List String) (w : Writing ε) : Prop where
  /-- What the destination has received: a record for each line, all of them writes that succeed. -/
  records : w.destination.written = d.written ++ writesFrom separator 0 written
  bytes : w.destination.bytes = d.bytes ++ separator.intercalate (written.map encodeUtf8)
  succeed : ∀ i < (writesFrom separator 0 written).length, d.Accepts i
  flushed : w.destination.flushes = d.flushes + 1
  /-- Behind the lines something stops the sink, and no item behind that is pulled. -/
  stops : ∃ left outcome, items = written.map .ok ++ left ∧
    Stops separator written.length (d.taking (writesFrom separator 0 written)) left w.rest outcome ∧
    w.result = afterFlush d outcome

/-- Whatever its items and whenever writes fail, a sink writes the lines before what stops it. -/
theorem sink_writes_joined_prefix (separator : Bytes) (d : Destination)
    (items : List (Except ε String)) :
    ∃ written, WritesJoined separator d items written (write separator d items) := by
  obtain ⟨written, left, hitems, hdestination, hsucceed, hstops⟩ :=
    writeFrom_stops separator 0 d items
  rw [Nat.zero_add] at hstops
  have hbytes : (d.taking (writesFrom separator 0 written)).bytes =
      d.bytes ++ separator.intercalate (written.map encodeUtf8) := by
    rw [d.bytes_taking, flatten_writesFrom_zero]
  rw [write_eq, hdestination]
  exact ⟨written, d.written_taking _, hbytes, hsucceed, rfl, left, _, hitems, hstops, rfl⟩

end LineQuery.Pool.LineSink
