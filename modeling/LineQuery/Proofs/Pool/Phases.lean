import LineQuery.Proofs.Pool.Interleaving
import Mathlib.Logic.Function.Basic

/-! # A pass step by step

A pass starts its workers, hands out the lines of its source, closes the inputs, waits for the
workers, joins the drains and flushes. While it does so the drains read what the workers write, at
any pace. A drain may read anything, and any of its writes may fail. What `Pass.run` says of a pass
is the end of one of these runs.
-/

namespace LineQuery.Pool

open LineQuery.Text (Bytes byteLines)

/-! ## Drains -/

/-- The streams that a worker writes. -/
inductive Stream where
  | stdout
  | stderr
deriving DecidableEq

/-- A drain at work: the slot and the stream that it reads, what it has seen so far, and whether
the stream has ended. -/
structure LiveDrain where
  slot : Nat
  stream : Stream
  stats : DrainStats
  ended : Bool

namespace LiveDrain

/-- The drains of a slot in the order in which they are started and joined. -/
def ofSlot (number : Nat) : List LiveDrain :=
  [⟨number, .stdout, ⟨0, none⟩, false⟩, ⟨number, .stderr, ⟨0, none⟩, false⟩]

/-- The drain after one more line, and why that could not be written if it could not. -/
def read (t : LiveDrain) (failure : Option WriteError) : LiveDrain :=
  { t with stats := ⟨t.stats.lines + 1, t.stats.failure.or failure⟩ }

/-- The drain at the end of its stream. -/
def finish (t : LiveDrain) : LiveDrain :=
  { t with ended := true }

/-- The report of a slot with the lines that a drain of it has read. -/
def entered (t : LiveDrain) (r : SlotReport) : SlotReport :=
  match t.stream with
  | .stdout => { r with stdoutLines := t.stats.lines }
  | .stderr => { r with stderrLines := t.stats.lines }

/-- The reports of all slots with the lines that a drain has read. -/
def enter (reports : List SlotReport) (t : LiveDrain) : List SlotReport :=
  reports.modify (t.slot - 1) t.entered

/-- What a drain does next. -/
inductive Turn (outputs : Stream → Destination) (t : LiveDrain) :
    LiveDrain → (Stream → Destination) → Prop where
  /-- It reads a line and writes the record of it. -/
  | written (text : Bytes) (unfailed : t.stats.failure = none) :
    Turn outputs t (t.read none) (Function.update outputs t.stream
      { outputs t.stream with
        records := OutputLine.record ⟨t.slot, text⟩ :: (outputs t.stream).records })
  /-- It reads a line and fails to write the record. -/
  | lost (e : WriteError) (unfailed : t.stats.failure = none) :
    Turn outputs t (t.read (some e)) outputs
  /-- It has failed before. It reads a line and does nothing with it. -/
  | ignored (e : WriteError) (failed : t.stats.failure = some e) :
    Turn outputs t (t.read none) outputs
  /-- It comes to the end of the stream. -/
  | ended : Turn outputs t t.finish outputs

end LiveDrain

/-! ## Stages and steps -/

/-- How far a pass has come, with what it has to remember. -/
inductive Stage where
  | starting (left : List (Except String (Worker × Pipe)))
  | killing (cause : String) (next : Nat)
  | handingOut (place : Nat)
  | closing (sourceError : Option String) (next : Nat)
  | waiting (sourceError : Option String) (next : Nat)
  | joining (sourceError : Option String) (next : Nat) (outputError : Option WriteError)
    (reports : List SlotReport)
  | flushing (next : Stream) (report : Report)
  | returned (result : Except PassError Report)

/-- A pass on its way: the workers started so far, the drains, the items of the source that have
not been pulled, and what has been written. -/
structure Passing where
  stage : Stage
  slots : List Slot
  drains : List LiveDrain
  source : List SourceItem
  outputs : Stream → Destination

namespace Passing

/-- A pass before anything has happened, with what will come of starting each worker. -/
def start (starts : List (Except String (Worker × Pipe))) (source : List SourceItem)
    (outputs : Stream → Destination) : Passing :=
  ⟨.starting starts, [], [], source, outputs⟩

/-- One step of a pass: of the pass itself, which goes from stage to stage, or of a drain. -/
inductive Step (program : String) (separator : Bytes) : Passing → Passing → Prop where
  | started {worker pipe left slots drains source outputs} :
    Step program separator ⟨.starting (.ok (worker, pipe) :: left), slots, drains, source, outputs⟩
      ⟨.starting left, slots ++ [.start (slots.length + 1) worker pipe], drains, source, outputs⟩
  | failedToStart {cause left slots drains source outputs} :
    Step program separator ⟨.starting (.error cause :: left), slots, drains, source, outputs⟩
      ⟨.killing cause 0, slots, drains, source, outputs⟩
  | killed {cause k slots drains source outputs} (next : k < slots.length) :
    Step program separator ⟨.killing cause k, slots, drains, source, outputs⟩
      ⟨.killing cause (k + 1), slots.modify k Slot.kill, drains, source, outputs⟩
  | allKilled {cause k slots drains source outputs} (all : k = slots.length) :
    Step program separator ⟨.killing cause k, slots, drains, source, outputs⟩
      ⟨.returned (.error (.spawn program cause)), slots, drains, source, outputs⟩
  | allStarted {slots drains source outputs} :
    Step program separator ⟨.starting [], slots, drains, source, outputs⟩
      ⟨.handingOut 0, slots, slots.flatMap fun s => LiveDrain.ofSlot s.number, source, outputs⟩
  | sent {place line slots drains source outputs} :
    Step program separator ⟨.handingOut place, slots, drains, .ok line :: source, outputs⟩
      ⟨.handingOut (if place + 1 < slots.length then place + 1 else 0),
        slots.modify place fun s => (s.send (Text.encodeUtf8 line) separator).2,
        drains, source, outputs⟩
  | sourceFailed {place message slots drains source outputs} :
    Step program separator ⟨.handingOut place, slots, drains, .error message :: source, outputs⟩
      ⟨.closing (some message) 0, slots, drains, source, outputs⟩
  | sourceEnded {place slots drains outputs} :
    Step program separator ⟨.handingOut place, slots, drains, [], outputs⟩
      ⟨.closing none 0, slots, drains, [], outputs⟩
  | closed {failure k slots drains source outputs} (next : k < slots.length) :
    Step program separator ⟨.closing failure k, slots, drains, source, outputs⟩
      ⟨.closing failure (k + 1), slots.modify k Slot.close, drains, source, outputs⟩
  | allClosed {failure k slots drains source outputs} (all : k = slots.length) :
    Step program separator ⟨.closing failure k, slots, drains, source, outputs⟩
      ⟨.waiting failure 0, slots, drains, source, outputs⟩
  | waited {failure k slots drains source outputs} (next : k < slots.length) :
    Step program separator ⟨.waiting failure k, slots, drains, source, outputs⟩
      ⟨.waiting failure (k + 1), slots.modify k fun s => s.wait.2, drains, source, outputs⟩
  | allWaited {failure k slots drains source outputs} (all : k = slots.length) :
    Step program separator ⟨.waiting failure k, slots, drains, source, outputs⟩
      ⟨.joining failure 0 none (slots.map fun s => s.report ⟨0, none⟩ ⟨0, none⟩),
        slots, drains, source, outputs⟩
  /-- Joining waits for the drain to come to its end. -/
  | joined {failure k error reports t slots drains source outputs}
    (next : drains[k]? = some t) (ended : t.ended = true) :
    Step program separator ⟨.joining failure k error reports, slots, drains, source, outputs⟩
      ⟨.joining failure (k + 1) (error.or t.stats.failure) (LiveDrain.enter reports t),
        slots, drains, source, outputs⟩
  | sourceError {message k error reports slots drains source outputs} (all : k = drains.length) :
    Step program separator ⟨.joining (some message) k error reports, slots, drains, source, outputs⟩
      ⟨.returned (.error (.source message)), slots, drains, source, outputs⟩
  | outputError {e k reports slots drains source outputs} (all : k = drains.length) :
    Step program separator ⟨.joining none k (some e) reports, slots, drains, source, outputs⟩
      ⟨.returned (.error (.output e)), slots, drains, source, outputs⟩
  | allJoined {k reports slots drains source outputs} (all : k = drains.length) :
    Step program separator ⟨.joining none k none reports, slots, drains, source, outputs⟩
      ⟨.flushing .stdout ⟨reports⟩, slots, drains, source, outputs⟩
  | flushFailed {stream report e slots drains source outputs}
    (failed : (outputs stream).flush.1 = some e) :
    Step program separator ⟨.flushing stream report, slots, drains, source, outputs⟩
      ⟨.returned (.error (.output e)), slots, drains, source,
        Function.update outputs stream (outputs stream).flush.2⟩
  | stdoutFlushed {report slots drains source outputs} (ok : (outputs .stdout).flush.1 = none) :
    Step program separator ⟨.flushing .stdout report, slots, drains, source, outputs⟩
      ⟨.flushing .stderr report, slots, drains, source,
        Function.update outputs .stdout (outputs .stdout).flush.2⟩
  | stderrFlushed {report slots drains source outputs} (ok : (outputs .stderr).flush.1 = none) :
    Step program separator ⟨.flushing .stderr report, slots, drains, source, outputs⟩
      ⟨.returned (.ok report), slots, drains, source,
        Function.update outputs .stderr (outputs .stderr).flush.2⟩
  /-- A drain that has been started goes on until its stream ends, whatever the pass does. -/
  | drain {stage k t t' slots drains source outputs outputs'}
    (running : drains[k]? = some t) (unended : t.ended = false)
    (turn : LiveDrain.Turn outputs t t' outputs') :
    Step program separator ⟨stage, slots, drains, source, outputs⟩
      ⟨stage, slots, drains.set k t', source, outputs'⟩

/-- The steps of a pass up to some moment. -/
abbrev Runs (program : String) (separator : Bytes) : Passing → Passing → Prop :=
  Relation.ReflTransGen (Step program separator)

end Passing

/-! ## Lists that are gone through -/

theorem modify_length_append {α : Type} (before : List α) (x : α) (after : List α) (f : α → α) :
    (before ++ x :: after).modify before.length f = before ++ f x :: after := by
  induction before with
  | nil => rfl
  | cons first before ih => rw [List.cons_append, List.length_cons, List.modify_succ_cons, ih]; rfl

theorem freshSlots_concat (pool : List (Worker × Pipe)) (worker : Worker) (pipe : Pipe) :
    freshSlots (pool ++ [(worker, pipe)]) =
      freshSlots pool ++ [.start ((freshSlots pool).length + 1) worker pipe] := by
  rw [freshSlots, List.mapIdx_concat, length_freshSlots]
  rfl

namespace Slot

/-- The number of a slot and its worker, which never change. -/
def who (s : Slot) : Nat × Worker :=
  (s.number, s.worker)

/-- Sending a line does not change which slot it is and which worker it has. -/
theorem who_send (s : Slot) (line separator : Bytes) : (s.send line separator).2.who = s.who := by
  have hsends := s.sends line separator
  generalize s.send line separator = outcome at hsends ⊢
  cases hsends with
  | sent => rfl
  | lost => rfl

theorem who_close (s : Slot) : s.close.who = s.who := by
  unfold close
  split
  · rfl
  · rfl

theorem who_wait (s : Slot) : s.wait.2.who = s.who :=
  s.who_close

theorem who_kill (s : Slot) : s.kill.who = s.who :=
  s.who_close

theorem close_stdin (s : Slot) : s.close.stdin = none := by
  unfold close
  split
  · assumption
  · rfl

/-- An input that has been closed is not closed again before the worker is waited for. -/
theorem wait_close (s : Slot) : s.close.wait.2 = s.finish.1 := by
  have hclose : s.close.close = s.close := by
    conv_lhs => rw [close]
    rw [s.close_stdin]
  show s.close.finish.1 = s.finish.1
  rw [finish, hclose]
  rfl

end Slot

theorem map_modify_of_eq {β : Type} {f : Slot → Slot} {g : Slot → β} (h : ∀ s, g (f s) = g s)
    (slots : List Slot) (k : Nat) : (slots.modify k f).map g = slots.map g := by
  refine List.ext_getElem? fun j => ?_
  rw [List.getElem?_map, List.getElem?_map, List.getElem?_modify]
  cases slots[j]? with
  | none => rfl
  | some s =>
    by_cases hj : k = j
    · simp [hj, h]
    · simp [hj]

/-- Handing out makes no worker another. -/
theorem map_who_distribute (separator : Bytes) (slots : List Slot) (place : Nat)
    (source : List SourceItem) :
    (distribute separator slots place source).1.map Slot.who = slots.map Slot.who := by
  induction source generalizing slots place with
  | nil => rfl
  | cons item source ih =>
    cases item with
    | error message => rfl
    | ok line =>
      rw [distribute, ih]
      exact map_modify_of_eq (fun s => s.who_send _ separator) slots place

/-- The drains of some slots at the end of their streams, with what they have seen. -/
def endedDrains (slots : List Slot) (outs errs : List DrainStats) : List LiveDrain :=
  (slots.zip (outs.zip errs)).flatMap fun (s, o, e) =>
    [⟨s.number, .stdout, o, true⟩, ⟨s.number, .stderr, e, true⟩]

/-- The slots that are numbered one after another. -/
def Numbered (number : Nat) (slots : List Slot) : Prop :=
  ∀ k s, slots[k]? = some s → s.number = number + k

theorem Numbered.tail {number : Nat} {s : Slot} {slots : List Slot}
    (h : Numbered number (s :: slots)) : Numbered (number + 1) slots := by
  intro k s' hs'
  rw [h (k + 1) s' hs', Nat.add_assoc, Nat.add_comm 1]

/-- Both drains of a slot are entered at its place. -/
theorem enter_enter {s : Slot} {before : List SlotReport} (hnumber : s.number = before.length + 1)
    (o e : DrainStats) (after : List SlotReport) :
    LiveDrain.enter (LiveDrain.enter (before ++ s.report ⟨0, none⟩ ⟨0, none⟩ :: after)
        ⟨s.number, .stdout, o, true⟩) ⟨s.number, .stderr, e, true⟩ =
      before ++ s.report o e :: after := by
  have hplace : s.number - 1 = before.length := by
    rw [hnumber, Nat.add_sub_cancel]
  rw [LiveDrain.enter, LiveDrain.enter]
  dsimp only
  rw [hplace, modify_length_append, modify_length_append]
  rfl

theorem numbered_of_who {slots : List Slot} {pool : List (Worker × Pipe)}
    (h : slots.map Slot.who = (freshSlots pool).map Slot.who) : Numbered 1 slots := by
  intro k s hs
  have hwho := congrArg (fun list => list[k]?) h
  simp only [List.getElem?_map, hs, getElem?_freshSlots, Option.map_map] at hwho
  obtain ⟨worker, -, hworker⟩ := Option.map_eq_some_iff.mp hwho.symm
  have hnumber : k + 1 = s.number := congrArg Prod.fst hworker
  rw [← hnumber, Nat.add_comm]

/-- What is made of the numbers of slots depends on nothing but which slots they are. -/
theorem flatMap_number_congr {β : Type} {slots slots' : List Slot}
    (h : slots.map Slot.who = slots'.map Slot.who) (g : Nat → List β) :
    slots.flatMap (fun s => g s.number) = slots'.flatMap fun s => g s.number := by
  have hwho : ∀ slots : List Slot, slots.flatMap (fun s => g s.number) =
      (slots.map Slot.who).flatMap fun who => g who.1 := by
    intro slots
    rw [List.flatMap_map]
    rfl
  rw [hwho, hwho, h]

/-- When all drains have been entered, the reports are those of the slots. -/
theorem foldl_enter {slots : List Slot} {outs errs : List DrainStats} (before : List SlotReport)
    (hnumbers : Numbered (before.length + 1) slots) (houts : outs.length = slots.length)
    (herrs : errs.length = slots.length) :
    (endedDrains slots outs errs).foldl LiveDrain.enter
        (before ++ slots.map fun s => s.report ⟨0, none⟩ ⟨0, none⟩) =
      before ++ (slots.zip (outs.zip errs)).map fun (s, o, e) => s.report o e := by
  induction slots generalizing before outs errs with
  | nil => rfl
  | cons s slots ih =>
    match outs, errs with
    | o :: outs, e :: errs =>
      have hnumbers' : Numbered ((before ++ [s.report o e]).length + 1) slots := by
        rw [List.length_append]
        exact hnumbers.tail
      have hrest := ih (before ++ [s.report o e]) hnumbers' (Nat.succ.inj houts)
        (Nat.succ.inj herrs)
      rw [List.append_assoc, List.append_assoc] at hrest
      show (endedDrains slots outs errs).foldl LiveDrain.enter
        (LiveDrain.enter (LiveDrain.enter _ _) _) = _
      rw [List.map_cons, enter_enter (hnumbers 0 s rfl)]
      exact hrest

/-- The first failure is that of the drain that is joined first. -/
theorem findSome?_endedDrains {slots : List Slot} {outs errs : List DrainStats}
    (houts : outs.length = slots.length) (herrs : errs.length = slots.length) :
    (endedDrains slots outs errs).findSome? (fun t => t.stats.failure) =
      firstFailure outs errs := by
  induction slots generalizing outs errs with
  | nil =>
    obtain rfl := List.length_eq_zero_iff.mp houts
    rfl
  | cons s slots ih =>
    match outs, errs with
    | o :: outs, e :: errs =>
      have hrest := ih (Nat.succ.inj houts) (Nat.succ.inj herrs)
      rw [endedDrains, List.zip_cons_cons, List.zip_cons_cons, List.flatMap_cons,
        List.findSome?_append, firstFailure, List.zip_cons_cons, List.flatMap_cons,
        List.findSome?_append]
      exact congrArg₂ Option.or rfl hrest

/-- The destinations of both streams. -/
def outputsOf (out err : Destination) : Stream → Destination
  | .stdout => out
  | .stderr => err

theorem update_stdout (out err d : Destination) :
    Function.update (outputsOf out err) .stdout d = outputsOf d err := by
  funext stream
  cases stream with
  | stdout => rfl
  | stderr => rfl

theorem update_stderr (out err d : Destination) :
    Function.update (outputsOf out err) .stderr d = outputsOf out d := by
  funext stream
  cases stream with
  | stdout => rfl
  | stderr => rfl

namespace LiveDrain

/-- To pass on a line, as a drain of `Pass.run` does, is one of its turns. -/
theorem turn_drainLine (outputs : Stream → Destination) (t : LiveDrain) (text : Bytes) :
    let last := drainLine t.slot (t.stats, outputs t.stream) text
    Turn outputs t { t with stats := last.1 } (Function.update outputs t.stream last.2) := by
  intro last
  cases hfailure : t.stats.failure with
  | some e =>
    have hlast : last = ((t.read none).stats, outputs t.stream) := by
      simp only [last, drainLine, read, hfailure, Option.or]
    rw [hlast, Function.update_eq_self]
    exact .ignored e hfailure
  | none =>
    have hrecord : (OutputLine.record ⟨t.slot, text⟩).isEmpty = false := by
      rw [OutputLine.record_eq]
      simp
    by_cases hclosed : (outputs t.stream).isClosed = true
    · have hlast : last = ((t.read (some .closed)).stats, outputs t.stream) := by
        simp [last, drainLine, read, hfailure, Destination.write, hrecord, hclosed]
      rw [hlast, Function.update_eq_self]
      exact .lost .closed hfailure
    · have hlast : last = ((t.read none).stats, { outputs t.stream with
          records := OutputLine.record ⟨t.slot, text⟩ :: (outputs t.stream).records }) := by
        simp [last, drainLine, read, hfailure, Destination.write, hrecord, hclosed]
      rw [hlast]
      exact .written text hfailure

end LiveDrain

namespace Passing

/-! ## The run of a pass -/

section Runs

variable {program : String} {separator : Bytes} {slots : List Slot} {drains : List LiveDrain}
  {source : List SourceItem} {outputs : Stream → Destination}

/-- Workers are started one after another, each in a slot of its own. -/
theorem runs_starting (pool : List (Worker × Pipe))
    (left : List (Except String (Worker × Pipe))) :
    Runs program separator ⟨.starting (pool.map .ok ++ left), [], drains, source, outputs⟩
      ⟨.starting left, freshSlots pool, drains, source, outputs⟩ := by
  have hloop : ∀ before more : List (Worker × Pipe), Runs program separator
      ⟨.starting (more.map .ok ++ left), freshSlots before, drains, source, outputs⟩
      ⟨.starting left, freshSlots (before ++ more), drains, source, outputs⟩ := by
    intro before more
    induction more generalizing before with
    | nil =>
      rw [List.append_nil]
      exact .refl
    | cons worker more ih =>
      have hrest := ih (before ++ [worker])
      rw [List.append_assoc, freshSlots_concat] at hrest
      exact .head .started hrest
  exact hloop [] pool

/-- A loop that does the same to each slot in turn. -/
theorem runs_loop {stage : Nat → Stage} {f : Slot → Slot}
    (hstep : ∀ k slots, k < slots.length → Step program separator
      ⟨stage k, slots, drains, source, outputs⟩
      ⟨stage (k + 1), slots.modify k f, drains, source, outputs⟩) (slots : List Slot) :
    Runs program separator ⟨stage 0, slots, drains, source, outputs⟩
      ⟨stage (slots.map f).length, slots.map f, drains, source, outputs⟩ := by
  have hloop : ∀ before after : List Slot, Runs program separator
      ⟨stage before.length, before ++ after, drains, source, outputs⟩
      ⟨stage (before ++ after.map f).length, before ++ after.map f, drains, source, outputs⟩ := by
    intro before after
    induction after generalizing before with
    | nil => rw [List.map_nil, List.append_nil]
    | cons s after ih =>
      have hnext : before.length < (before ++ s :: after).length := by
        rw [List.length_append, List.length_cons]
        omega
      have hfirst := hstep before.length (before ++ s :: after) hnext
      have hrest := ih (before ++ [f s])
      rw [List.append_assoc, List.append_assoc, List.length_append, List.length_singleton]
        at hrest
      rw [modify_length_append] at hfirst
      exact .head hfirst hrest
  exact hloop [] slots

/-- The lines are handed out until the source ends or fails. -/
theorem runs_handingOut (place : Nat) (slots : List Slot) (source : List SourceItem) :
    let handed := distribute separator slots place source
    Runs program separator ⟨.handingOut place, slots, drains, source, outputs⟩
      ⟨.closing handed.2.1 0, handed.1, drains, handed.2.2, outputs⟩ := by
  induction source generalizing place slots with
  | nil => exact .single .sourceEnded
  | cons item source ih =>
    cases item with
    | error message => exact .single .sourceFailed
    | ok line =>
      have hrest := ih (if place + 1 < slots.length then place + 1 else 0)
        (slots.modify place fun s => (s.send (Text.encodeUtf8 line) separator).2)
      intro handed
      have hhanded : handed = distribute separator
          (slots.modify place fun s => (s.send (Text.encodeUtf8 line) separator).2)
          (if place + 1 < slots.length then place + 1 else 0) source := by
        show distribute separator slots place (.ok line :: source) = _
        rw [distribute, List.length_modify]
      rw [hhanded]
      exact .head .sent hrest

/-- A drain anywhere among others takes its turn. -/
theorem step_of_turn {stage : Stage} {before after : List LiveDrain} {t t' : LiveDrain}
    {outputs' : Stream → Destination} (hunended : t.ended = false)
    (hturn : LiveDrain.Turn outputs t t' outputs') :
    Step program separator ⟨stage, slots, before ++ t :: after, source, outputs⟩
      ⟨stage, slots, before ++ t' :: after, source, outputs'⟩ := by
  have hrunning : (before ++ t :: after)[before.length]? = some t := by
    rw [List.getElem?_append_right (Nat.le_refl _), Nat.sub_self, List.getElem?_cons_zero]
  have hset : (before ++ t :: after).set before.length t' = before ++ t' :: after := by
    rw [List.set_append_right _ _ (Nat.le_refl _), Nat.sub_self, List.set_cons_zero]
  rw [← hset]
  exact .drain hrunning hunended hturn

/-- A drain reads a whole stream and comes to the end of it. -/
theorem runs_lines {stage : Stage} {before after : List LiveDrain} (t : LiveDrain)
    (hunended : t.ended = false) (texts : List Bytes) (outputs : Stream → Destination) :
    let last := texts.foldl (drainLine t.slot) (t.stats, outputs t.stream)
    Runs program separator ⟨stage, slots, before ++ t :: after, source, outputs⟩
      ⟨stage, slots, before ++ ⟨t.slot, t.stream, last.1, true⟩ :: after, source,
        Function.update outputs t.stream last.2⟩ := by
  induction texts generalizing t outputs with
  | nil =>
    rw [List.foldl_nil]
    dsimp only
    rw [Function.update_eq_self]
    exact .single (step_of_turn hunended .ended)
  | cons text texts ih =>
    let passed := drainLine t.slot (t.stats, outputs t.stream) text
    have hrest := ih { t with stats := passed.1 } hunended
      (Function.update outputs t.stream passed.2)
    dsimp only at hrest
    rw [Function.update_self, Function.update_idem] at hrest
    exact .head (step_of_turn hunended (t.turn_drainLine outputs text)) hrest

/-- All drains read what the workers have written. -/
theorem runs_drains (stage : Stage) (before : List LiveDrain) (ended : List (Slot × Response))
    (out err : Destination) :
    let outs := drainAll (·.stdout) ended out
    let errs := drainAll (·.stderr) ended err
    Runs program separator
      ⟨stage, slots, before ++ (ended.map (·.1)).flatMap fun s => LiveDrain.ofSlot s.number, source,
        outputsOf out err⟩
      ⟨stage, slots, before ++ endedDrains (ended.map (·.1)) outs.1 errs.1, source,
        outputsOf outs.2 errs.2⟩ := by
  induction ended generalizing before out err with
  | nil => exact .refl
  | cons e ended ih =>
    let o := drain e.1.number out e.2.stdout
    let r := drain e.1.number err e.2.stderr
    let others := (ended.map (·.1)).flatMap fun s => LiveDrain.ofSlot s.number
    -- the two drains of the first slot run one behind the other, then those of the others
    have hout : Runs program separator
        ⟨stage, slots, before ++ ⟨e.1.number, .stdout, ⟨0, none⟩, false⟩ ::
          ⟨e.1.number, .stderr, ⟨0, none⟩, false⟩ :: others, source, outputsOf out err⟩
        ⟨stage, slots, before ++ ⟨e.1.number, .stdout, o.1, true⟩ ::
          ⟨e.1.number, .stderr, ⟨0, none⟩, false⟩ :: others, source, outputsOf o.2 err⟩ := by
      have hlines := update_stdout out err o.2
      rw [← hlines]
      exact runs_lines ⟨e.1.number, .stdout, ⟨0, none⟩, false⟩ rfl (byteLines e.2.stdout) _
    have herr : Runs program separator
        ⟨stage, slots, (before ++ [⟨e.1.number, .stdout, o.1, true⟩]) ++
          ⟨e.1.number, .stderr, ⟨0, none⟩, false⟩ :: others, source, outputsOf o.2 err⟩
        ⟨stage, slots, (before ++ [⟨e.1.number, .stdout, o.1, true⟩]) ++
          ⟨e.1.number, .stderr, r.1, true⟩ :: others, source, outputsOf o.2 r.2⟩ := by
      have hlines := update_stderr o.2 err r.2
      rw [← hlines]
      exact runs_lines ⟨e.1.number, .stderr, ⟨0, none⟩, false⟩ rfl (byteLines e.2.stderr) _
    have hrest := ih (before ++ [⟨e.1.number, .stdout, o.1, true⟩,
      ⟨e.1.number, .stderr, r.1, true⟩]) o.2 r.2
    dsimp only at hrest
    rw [List.append_assoc, List.append_assoc] at herr hrest
    exact hout.trans (herr.trans hrest)

/-- The drains are joined in their order. -/
theorem runs_joining (failure : Option String) (before after : List LiveDrain)
    (hended : ∀ t ∈ after, t.ended = true) (error : Option WriteError)
    (reports : List SlotReport) :
    Runs program separator
      ⟨.joining failure before.length error reports, slots, before ++ after, source, outputs⟩
      ⟨.joining failure (before ++ after).length
        (error.or (after.findSome? fun t => t.stats.failure))
        (after.foldl LiveDrain.enter reports), slots, before ++ after, source, outputs⟩ := by
  induction after generalizing before error reports with
  | nil =>
    rw [List.append_nil, List.findSome?_nil, Option.or_none]
    exact .refl
  | cons t after ih =>
    have hnext : (before ++ t :: after)[before.length]? = some t := by
      rw [List.getElem?_append_right (Nat.le_refl _), Nat.sub_self, List.getElem?_cons_zero]
    have hrest := ih (before ++ [t]) (fun t' ht' => hended t' (List.mem_cons_of_mem _ ht'))
      (error.or t.stats.failure) (LiveDrain.enter reports t)
    have hfirst : (t :: after).findSome? (fun t => t.stats.failure) =
        t.stats.failure.or (after.findSome? fun t => t.stats.failure) := by
      rw [List.findSome?_cons]
      cases t.stats.failure with
      | none => rfl
      | some e => rfl
    rw [List.append_assoc, List.length_append, List.length_singleton, Option.or_assoc, ← hfirst]
      at hrest
    exact .head (.joined hnext (hended t List.mem_cons_self)) hrest

section Flushing

variable {report : Report} {out err d : Destination} {e : WriteError}

theorem stdout_flushed (h : out.flush = (none, d)) : Step program separator
    ⟨.flushing .stdout report, slots, drains, source, outputsOf out err⟩
    ⟨.flushing .stderr report, slots, drains, source, outputsOf d err⟩ := by
  have hdest : d = out.flush.2 := (congrArg Prod.snd h).symm
  rw [hdest, ← update_stdout out err out.flush.2]
  have hok : (outputsOf out err .stdout).flush.1 = none := congrArg Prod.fst h
  exact .stdoutFlushed hok

theorem stderr_flushed (h : err.flush = (none, d)) : Step program separator
    ⟨.flushing .stderr report, slots, drains, source, outputsOf out err⟩
    ⟨.returned (.ok report), slots, drains, source, outputsOf out d⟩ := by
  have hdest : d = err.flush.2 := (congrArg Prod.snd h).symm
  rw [hdest, ← update_stderr out err err.flush.2]
  have hok : (outputsOf out err .stderr).flush.1 = none := congrArg Prod.fst h
  exact .stderrFlushed hok

/-- If the first destination cannot be flushed the other one is not. -/
theorem stdout_flush_failed (h : out.flush = (some e, d)) : Step program separator
    ⟨.flushing .stdout report, slots, drains, source, outputsOf out err⟩
    ⟨.returned (.error (.output e)), slots, drains, source, outputsOf d err⟩ := by
  have hdest : d = out.flush.2 := (congrArg Prod.snd h).symm
  rw [hdest, ← update_stdout out err out.flush.2]
  have hfailed : (outputsOf out err .stdout).flush.1 = some e := congrArg Prod.fst h
  exact .flushFailed hfailed

theorem stderr_flush_failed (h : err.flush = (some e, d)) : Step program separator
    ⟨.flushing .stderr report, slots, drains, source, outputsOf out err⟩
    ⟨.returned (.error (.output e)), slots, drains, source, outputsOf out d⟩ := by
  have hdest : d = err.flush.2 := (congrArg Prod.snd h).symm
  rw [hdest, ← update_stderr out err err.flush.2]
  have hfailed : (outputsOf out err .stderr).flush.1 = some e := congrArg Prod.fst h
  exact .flushFailed hfailed

end Flushing

end Runs

/-- From the end of its workers on, a pass does what `conclude` says. -/
theorem runs_conclude {program : String} {separator : Bytes} {ended : List (Slot × Response)}
    (hnumbers : Numbered 1 (ended.map (·.1))) (failure : Option String)
    (rest : List SourceItem) (out err : Destination) :
    let pass := conclude ended failure rest out err
    let slots := ended.map (·.1)
    ∃ drains, Runs program separator
      ⟨.joining failure 0 none (slots.map fun s => s.report ⟨0, none⟩ ⟨0, none⟩), slots,
        slots.flatMap fun s => LiveDrain.ofSlot s.number, rest, outputsOf out err⟩
      ⟨.returned pass.result, pass.slots, drains, pass.rest,
        outputsOf pass.stdout pass.stderr⟩ := by
  intro pass slots
  let outs := drainAll (·.stdout) ended out
  let errs := drainAll (·.stderr) ended err
  let drains := endedDrains slots outs.1 errs.1
  have houts : outs.1.length = slots.length := by
    rw [length_drainAll, List.length_map]
  have herrs : errs.1.length = slots.length := by
    rw [length_drainAll, List.length_map]
  have hended : ∀ t ∈ drains, t.ended = true := by
    intro t ht
    obtain ⟨stats, -, ht⟩ := List.mem_flatMap.mp ht
    rcases List.mem_cons.mp ht with rfl | ht
    · rfl
    · rw [List.mem_singleton.mp ht]
  have hreports := foldl_enter [] hnumbers houts herrs
  rw [List.nil_append, List.nil_append] at hreports
  refine ⟨drains, .trans (runs_drains _ [] ended out err) ?_⟩
  refine .trans (runs_joining failure [] drains hended none _) ?_
  rw [List.nil_append, findSome?_endedDrains houts herrs, Option.none_or, hreports]
  -- what is left depends on which failures there were
  show Runs program separator _ ⟨.returned (conclude ended failure rest out err).result,
    (conclude ended failure rest out err).slots, drains, (conclude ended failure rest out err).rest,
    outputsOf (conclude ended failure rest out err).stdout
      (conclude ended failure rest out err).stderr⟩
  unfold conclude
  dsimp only
  cases failure with
  | some message => exact .single (.sourceError rfl)
  | none =>
    cases hfirst : firstFailure outs.1 errs.1 with
    | some e => exact .single (.outputError rfl)
    | none =>
      refine .head (.allJoined rfl) ?_
      rcases hout : outs.2.flush with ⟨_ | e, out'⟩
      · refine .head (stdout_flushed hout) ?_
        rcases herr : errs.2.flush with ⟨_ | e, err'⟩
        · exact .single (stderr_flushed herr)
        · exact .single (stderr_flush_failed herr)
      · exact .single (stdout_flush_failed hout)

end Passing

/-! ## The whole pass -/

/-- What comes of starting each worker: its slot, numbered by its place, or why it cannot be
started. -/
def freshStarts (starts : List (Except String (Worker × Pipe))) : List (Except String Slot) :=
  starts.mapIdx fun k start => start.map fun worker => Slot.start (k + 1) worker.1 worker.2

theorem startAll_append (slots : List Slot) (starts : List (Except String Slot)) :
    startAll (slots.map .ok ++ starts) = (slots ++ (startAll starts).1, (startAll starts).2) := by
  induction slots with
  | nil => rfl
  | cons s slots ih => rw [List.map_cons, List.cons_append, startAll, ih]; rfl

theorem freshStarts_ok (pool : List (Worker × Pipe)) :
    freshStarts (pool.map .ok) = (freshSlots pool).map .ok := by
  refine List.ext_getElem? fun k => ?_
  rw [freshStarts, List.getElem?_mapIdx, List.getElem?_map, List.getElem?_map, getElem?_freshSlots]
  cases pool[k]? with
  | none => rfl
  | some worker => rfl

/-- The workers before the one that cannot be started have slots. -/
theorem startAll_freshStarts (pool : List (Worker × Pipe)) (cause : String)
    (left : List (Except String (Worker × Pipe))) :
    startAll (freshStarts (pool.map .ok ++ .error cause :: left)) =
      (freshSlots pool, some cause) := by
  have hok := freshStarts_ok pool
  rw [freshStarts] at hok
  rw [freshStarts, List.mapIdx_append, hok, List.mapIdx_cons, startAll_append]
  exact congrArg (fun slots => (slots, some cause)) (List.append_nil _)

/-- Either all workers can be started or there is a first that cannot. -/
theorem starts_cases (starts : List (Except String (Worker × Pipe))) :
    (∃ pool : List (Worker × Pipe), starts = pool.map .ok) ∨
      ∃ (pool : List (Worker × Pipe)) (cause : String)
        (left : List (Except String (Worker × Pipe))),
        starts = pool.map .ok ++ .error cause :: left := by
  induction starts with
  | nil => exact .inl ⟨[], rfl⟩
  | cons start starts ih =>
    cases start with
    | error cause => exact .inr ⟨[], cause, starts, rfl⟩
    | ok worker =>
      rcases ih with ⟨pool, rfl⟩ | ⟨pool, cause, left, rfl⟩
      · exact .inl ⟨worker :: pool, rfl⟩
      · exact .inr ⟨worker :: pool, cause, left, rfl⟩

/-- What `Pass.run` says of a pass is the end of one of its runs. -/
theorem exists_returned (program : String) (separator : Bytes)
    (starts : List (Except String (Worker × Pipe))) (source : List SourceItem)
    (out err : Destination) :
    let pass := Pass.run program (freshStarts starts) separator source out err
    ∃ drains, Passing.Runs program separator (.start starts source (outputsOf out err))
      ⟨.returned pass.result, pass.slots, drains, pass.rest,
        outputsOf pass.stdout pass.stderr⟩ := by
  rcases starts_cases starts with ⟨pool, rfl⟩ | ⟨pool, cause, left, rfl⟩
  · let slots := freshSlots pool
    let handed := distribute separator slots 0 source
    have hslots : (handed.1.map Slot.close).map (fun s => s.wait.2) =
        (handed.1.map Slot.finish).map (·.1) := by
      rw [List.map_map, List.map_map]
      exact List.map_congr_left fun s _ => s.wait_close
    have hwho : ((handed.1.map Slot.finish).map (·.1)).map Slot.who = slots.map Slot.who := by
      rw [List.map_map, List.map_map]
      refine Eq.trans ?_ (map_who_distribute separator slots 0 source)
      exact List.map_congr_left fun s _ => s.who_wait
    obtain ⟨drains, hconcluded⟩ : ∃ drains, Passing.Runs program separator _ _ :=
      Passing.runs_conclude (numbered_of_who hwho) handed.2.1 handed.2.2 out err
    have hpass : Pass.run program (freshStarts (pool.map .ok)) separator source out err =
        conclude (handed.1.map Slot.finish) handed.2.1 handed.2.2 out err := by
      rw [Pass.run, freshStarts_ok, startAll_ok]
    rw [flatMap_number_congr hwho, ← hslots] at hconcluded
    rw [hpass, Passing.start, ← List.append_nil (pool.map Except.ok)]
    refine ⟨drains, .trans (Passing.runs_starting pool []) ?_⟩
    refine .head .allStarted ?_
    refine .trans (Passing.runs_handingOut 0 slots source) ?_
    -- all slots are gone through twice, to close their inputs and to wait for their workers
    refine .trans (Passing.runs_loop (fun _ _ => .closed) handed.1) ?_
    refine .head (.allClosed rfl) ?_
    refine .trans (Passing.runs_loop (fun _ _ => .waited) (handed.1.map Slot.close)) ?_
    exact .head (.allWaited rfl) hconcluded
  · have hpass : Pass.run program (freshStarts (pool.map .ok ++ .error cause :: left)) separator
        source out err = ⟨(freshSlots pool).map Slot.kill, out, err, source,
          .error (.spawn program cause)⟩ := by
      rw [Pass.run, startAll_freshStarts]
    rw [hpass]
    refine ⟨[], .trans (Passing.runs_starting pool _) ?_⟩
    refine .head .failedToStart ?_
    refine .trans (Passing.runs_loop (fun _ _ => .killed) (freshSlots pool)) ?_
    exact .single (.allKilled rfl)

end LineQuery.Pool
