import LineQuery.Pool.Drain
import LineQuery.Proofs.Pool.Destinations
import LineQuery.Proofs.Text.LineReading
import Mathlib.Logic.Relation

/-! # What a drain passes on

A drain reads its stream to the end, whether it can write or not. It counts all lines, and it writes
the records of those before the first write that fails and nothing after that.
-/

namespace LineQuery.Pool

open LineQuery.Text (Bytes HasLines bareLines encodeUtf8 natText nextLine? Yields)
open Relation (ReflTransGen)

variable {slot n : Nat} {d : Destination} {e : WriteError} {stream text : Bytes}
  {texts passed lost : List Bytes} {result : DrainStats × Destination}

/-! ## Records -/

/-- A record without its line feed. -/
def OutputLine.tagged (line : OutputLine) : Bytes :=
  encodeUtf8 (natText line.slot) ++ 9 :: line.text

theorem OutputLine.record_eq (line : OutputLine) : line.record = line.tagged ++ [10] := by
  have htab : encodeUtf8 (natText line.slot ++ "\t") = encodeUtf8 (natText line.slot) ++ [9] := by
    simp [encodeUtf8, Text.encodeChars, String.utf8EncodeChar]
  rw [record, htab, tagged, List.append_assoc, List.append_assoc, List.append_assoc]
  rfl

theorem OutputLine.record_ne_nil (line : OutputLine) : line.record ≠ [] :=
  List.concat_ne_nil _ _

/-- The records of lines of a slot. Each is the number of the slot in base ten, a tab, the text and
a line feed. -/
def slotRecords (slot : Nat) (texts : List Bytes) : List Bytes :=
  texts.map fun text => encodeUtf8 (toString slot) ++ [9] ++ text ++ [10]

/-- What a drain writes for a line is its record. -/
theorem slotRecords_singleton (slot : Nat) (text : Bytes) :
    slotRecords slot [text] = [OutputLine.record ⟨slot, text⟩] := by
  rw [OutputLine.record_eq, OutputLine.tagged, List.append_cons _ 9 text]
  rfl

theorem slotRecords_cons (slot : Nat) (text : Bytes) (texts : List Bytes) :
    slotRecords slot (text :: texts) = slotRecords slot [text] ++ slotRecords slot texts := rfl

/-! ## Lines that are passed on -/

/-- A drain that has not failed counts a line and writes its record. -/
theorem drainLine_of_accepts (h : d.Accepts 0) (slot n : Nat) (text : Bytes) :
    drainLine slot (⟨n, none⟩, d) text = (⟨n + 1, none⟩, d.taking (slotRecords slot [text])) := by
  rw [drainLine, slotRecords_singleton]
  simp only [Destination.write_of_accepts (OutputLine.record_ne_nil ⟨slot, text⟩) h]

/-- A line whose write fails is counted, and the failure remembered. -/
theorem drainLine_of_not_accepts (h : ¬ d.Accepts 0) (slot n : Nat) (text : Bytes) :
    drainLine slot (⟨n, none⟩, d) text = (⟨n + 1, some .closed⟩, d) := by
  rw [drainLine]
  simp only [Destination.write_of_not_accepts (OutputLine.record_ne_nil ⟨slot, text⟩) h]

/-- A drain that has failed only counts. -/
theorem foldl_drainLine_failed (slot n : Nat) (e : WriteError) (d : Destination)
    (texts : List Bytes) :
    texts.foldl (drainLine slot) (⟨n, some e⟩, d) = (⟨n + texts.length, some e⟩, d) := by
  induction texts generalizing n with
  | nil => rfl
  | cons text texts ih =>
    rw [List.foldl_cons, drainLine, ih, List.length_cons, Nat.add_assoc, Nat.add_comm 1]

/-- A drain that had read `n` lines before and not failed has passed on some lines, with writes that
all succeed, and lost those behind them. -/
structure PassesOn (slot n : Nat) (d : Destination) (passed lost : List Bytes)
    (result : DrainStats × Destination) : Prop where
  written : result.2 = d.taking (slotRecords slot passed)
  bytes : result.2.bytes = d.bytes ++ (slotRecords slot passed).flatten
  succeed : ∀ i < passed.length, d.Accepts i
  lines : result.1.lines = n + (passed ++ lost).length
  /-- No line is lost, or else the write behind those that succeed fails, and that is what the drain
  remembers. -/
  failure : lost = [] ∧ result.1.failure = none ∨
    lost ≠ [] ∧ ¬ d.Accepts passed.length ∧ result.1.failure = some .closed

/-- One more line at the front is passed on if its write succeeds. -/
theorem PassesOn.cons (haccepts : d.Accepts 0)
    (h : PassesOn slot (n + 1) (d.taking (slotRecords slot [text])) passed lost result) :
    PassesOn slot n d (text :: passed) lost result where
  written := by
    rw [h.written, Destination.taking_taking, ← slotRecords_cons]
  bytes := by
    rw [h.bytes, Destination.bytes_taking, List.append_assoc, ← List.flatten_append,
      ← slotRecords_cons]
  succeed := by
    intro i hi
    cases i with
    | zero => exact haccepts
    | succ i =>
      have hnext := h.succeed i (Nat.lt_of_succ_lt_succ hi)
      rwa [Destination.accepts_taking, Nat.add_comm] at hnext
  lines := by
    rw [h.lines, List.cons_append, List.length_cons, Nat.add_assoc, Nat.add_comm 1]
  failure := by
    have hfailure := h.failure
    rwa [Destination.accepts_taking, Nat.add_comm] at hfailure

/-- A drain passes on the lines up to the first write that fails. -/
theorem exists_passesOn (slot n : Nat) (d : Destination) (texts : List Bytes) :
    ∃ passed lost, texts = passed ++ lost ∧
      PassesOn slot n d passed lost (texts.foldl (drainLine slot) (⟨n, none⟩, d)) := by
  induction texts generalizing n d with
  | nil => exact ⟨[], [], rfl, rfl, (List.append_nil _).symm, nofun, rfl, .inl ⟨rfl, rfl⟩⟩
  | cons text texts ih =>
    rw [List.foldl_cons]
    by_cases haccepts : d.Accepts 0
    · rw [drainLine_of_accepts haccepts]
      obtain ⟨passed, lost, rfl, hpasses⟩ := ih (n + 1) (d.taking (slotRecords slot [text]))
      exact ⟨text :: passed, lost, rfl, hpasses.cons haccepts⟩
    · -- the first write fails, and from then on the drain only counts
      rw [drainLine_of_not_accepts haccepts, foldl_drainLine_failed]
      refine ⟨[], text :: texts, rfl, rfl, (List.append_nil _).symm, nofun, ?_,
        .inr ⟨List.cons_ne_nil _ _, haccepts, rfl⟩⟩
      rw [List.nil_append, List.length_cons, Nat.add_assoc, Nat.add_comm 1]

/-! ## Reading to the end -/

/-- What a drain has not read of its stream, what it has seen, and its destination. -/
abbrev DrainState : Type :=
  Bytes × DrainStats × Destination

/-- One turn of a drain: it reads the next line of its stream and passes it on. -/
def Turn (slot : Nat) (s s' : DrainState) : Prop :=
  ∃ text, nextLine? 10 13 s.1 = some (text, s'.1) ∧ s'.2 = drainLine slot s.2 text

/-- What a drain does next is decided by what it has not read and what it has seen. -/
theorem turn_rightUnique (slot : Nat) : Relator.RightUnique (Turn slot) := by
  rintro s ⟨left, state⟩ ⟨left', state'⟩ ⟨text, hnext, hstate⟩ ⟨text', hnext', hstate'⟩
  obtain ⟨rfl, rfl⟩ := Prod.mk.inj (Option.some.inj (hnext.symm.trans hnext'))
  rw [Prod.mk.injEq]
  exact ⟨rfl, hstate.trans hstate'.symm⟩

/-- A drain that has failed keeps its first failure and writes nothing more. -/
theorem Turn.failed {s s' : DrainState} (h : Turn slot s s') (hfailed : s.2.1.failure = some e) :
    s'.2.1.failure = some e ∧ s'.2.2 = s.2.2 := by
  obtain ⟨text, -, hstate⟩ := h
  obtain ⟨left, ⟨lines, failure⟩, d⟩ := s
  obtain rfl := hfailed
  rw [hstate]
  exact ⟨rfl, rfl⟩

/-- No later turn takes a failure back. -/
theorem failed_of_turns {s s' : DrainState} (h : ReflTransGen (Turn slot) s s')
    (hfailed : s.2.1.failure = some e) : s'.2.1.failure = some e ∧ s'.2.2 = s.2.2 := by
  induction h with
  | refl => exact ⟨hfailed, rfl⟩
  | tail _ hturn ih =>
    obtain ⟨hfailure, hwritten⟩ := hturn.failed ih.1
    exact ⟨hfailure, hwritten.trans ih.2⟩

/-- A drain takes turns until nothing of its stream is left. -/
theorem turns_of_yields (slot : Nat) (h : Yields (nextLine? 10 13) stream texts)
    (state : DrainStats × Destination) :
    ReflTransGen (Turn slot) (stream, state) ([], texts.foldl (drainLine slot) state) := by
  induction h generalizing state with
  | done hnone =>
    rw [Text.nextLine?_eq_none_iff.mp hnone]
    exact .refl
  | more hsome _ ih => exact .head ⟨_, hsome, rfl⟩ (ih _)

theorem not_turn_of_end {state : DrainStats × Destination} {s : DrainState} :
    ¬ Turn slot ([], state) s := by
  rintro ⟨text, hnext, -⟩
  exact nomatch hnext

/-- A drain comes to the end of its stream, and what has failed on the way stays so. -/
structure ReadsToEnd (slot : Nat) (d : Destination) (stream : Bytes)
    (result : DrainStats × Destination) : Prop where
  turns : ReflTransGen (Turn slot) (stream, ⟨0, none⟩, d) ([], result)
  failed : ∀ s, ReflTransGen (Turn slot) (stream, ⟨0, none⟩, d) s →
    ∀ e, s.2.1.failure = some e → result.1.failure = some e ∧ result.2 = s.2.2

/-- A drain reads on behind a failure until nothing is left. -/
theorem readsToEnd_drain (slot : Nat) (d : Destination) (stream : Bytes) :
    ReadsToEnd slot d stream (drain slot d stream) := by
  have hturns := turns_of_yields slot (Text.yields_splitLines 10 13 stream) (⟨0, none⟩, d)
  refine ⟨hturns, fun s hs e hfailed => ?_⟩
  -- the turns from there on lead to the same end
  rcases ReflTransGen.total_of_right_unique (turn_rightUnique slot) hs hturns with hrest | hback
  · exact failed_of_turns hrest hfailed
  · rcases ReflTransGen.cases_head hback with hend | ⟨next, hturn, -⟩
    · rw [← hend] at hfailed ⊢
      exact ⟨hfailed, rfl⟩
    · exact absurd hturn not_turn_of_end

/-- Wherever writing fails, a drain reads its stream to the end and counts each line that ends and
what stands behind the last of them. It writes the records of the lines before the first failure,
in their order, and nothing else. -/
theorem drain_neither_loses_nor_invents (stream : Bytes) :
    ∃ ended rest, HasLines 10 stream ended rest ∧ ∀ (slot : Nat) (d : Destination),
      (drain slot d stream).1.lines = ended.length + (if rest = [] then 0 else 1) ∧
      (∃ passed lost, bareLines 13 ended rest = passed ++ lost ∧
        PassesOn slot 0 d passed lost (drain slot d stream)) ∧
      ReadsToEnd slot d stream (drain slot d stream) := by
  obtain ⟨ended, rest, hparts⟩ := HasLines.exists_parts 10 stream
  refine ⟨ended, rest, hparts, fun slot d => ?_⟩
  have hlines : Text.byteLines stream = bareLines 13 ended rest := hparts.splitLines_eq
  obtain ⟨passed, lost, htexts, hpasses⟩ := exists_passesOn slot 0 d (bareLines 13 ended rest)
  rw [← hlines] at hpasses
  refine ⟨?_, ⟨passed, lost, htexts, hpasses⟩, readsToEnd_drain slot d stream⟩
  rw [← Text.length_bareLines 13, htexts, ← Nat.zero_add (passed ++ lost).length]
  exact hpasses.lines

/-- A destination that closes behind one write has the record of the first of three lines. -/
theorem drain_neither_loses_nor_invents_of_closing :
    let stream := encodeUtf8 "a\r\nb\nc"
    let d : Destination := { closesAfter := some 1 }
    PassesOn 2 0 d [encodeUtf8 "a"] [encodeUtf8 "b", encodeUtf8 "c"] (drain 2 d stream) ∧
    (drain 2 d stream).1 = ⟨3, some .closed⟩ ∧
    (drain 2 d stream).2.bytes = encodeUtf8 "2\ta\n" := by
  intro stream d
  obtain ⟨ended, rest, hparts, h⟩ := drain_neither_loses_nor_invents stream
  obtain ⟨-, ⟨passed, lost, htexts, hpasses⟩, -⟩ := h 2 d
  have hlines : passed ++ lost = [encodeUtf8 "a"] ++ [encodeUtf8 "b", encodeUtf8 "c"] := by
    have hall : bareLines 13 ended rest = Text.byteLines stream := hparts.splitLines_eq.symm
    rw [← htexts, hall]
    decide
  -- one write succeeds, and the one behind it would not
  have hone : passed.length = 1 := by
    rcases hpasses.failure with ⟨hnone, -⟩ | ⟨-, hclosed, -⟩
    · have hthree : passed.length = 3 := by simpa [hnone] using congrArg List.length hlines
      exact absurd (hpasses.succeed 1 (by omega) 1 rfl) (by decide)
    · have hle : ¬ passed.length < 1 := fun hlt => hclosed fun n hn => by
        obtain rfl := Option.some.inj hn
        simpa [d] using hlt
      have hlt : ¬ 1 < passed.length := fun hlt =>
        absurd (hpasses.succeed 1 hlt 1 rfl) (by decide)
      omega
  obtain ⟨rfl, rfl⟩ := List.append_inj hlines hone
  have hstats : (drain 2 d stream).1 = ⟨3, some .closed⟩ := by decide
  refine ⟨hpasses, hstats, ?_⟩
  rw [hpasses.bytes]
  decide

end LineQuery.Pool
