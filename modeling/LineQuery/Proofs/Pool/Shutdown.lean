import LineQuery.Proofs.Pool.Phases

/-! # Every way out of a pass

However a pass goes, when it returns the inputs of all workers that were started have been closed
and the workers waited for, and all drains have come to the end of their streams. What it returns
is the first failure there was, in the order of the stages: of a start, of the source, of a drain
in the order in which the drains are joined, of a flush.
-/

namespace LineQuery.Pool

open LineQuery.Text (Bytes)

/-! ## First errors -/

section FirstError

variable {ε α : Type} {before before' : List α} {e e' : ε} {after after' : List (Except ε α)}

theorem map_ok_ne_append_error :
    before.map .ok ≠ before'.map .ok ++ (.error e : Except ε α) :: after := by
  intro h
  have hmem : (.error e : Except ε α) ∈ before.map Except.ok := by
    rw [h]
    exact List.mem_append_right _ List.mem_cons_self
  obtain ⟨x, -, hx⟩ := List.mem_map.mp hmem
  exact nomatch hx

/-- The first failure in a list is at one place. -/
theorem eq_of_append_error (h : before.map .ok ++ (.error e : Except ε α) :: after =
    before'.map .ok ++ .error e' :: after') : before = before' ∧ e = e' ∧ after = after' := by
  induction before generalizing before' with
  | nil =>
    cases before' with
    | nil =>
      obtain ⟨herror, hafter⟩ := List.cons.inj h
      exact ⟨rfl, Except.error.inj herror, hafter⟩
    | cons x before' => exact nomatch (List.cons.inj h).1
  | cons x before ih =>
    cases before' with
    | nil => exact nomatch (List.cons.inj h).1
    | cons x' before' =>
      obtain ⟨hx, hrest⟩ := List.cons.inj h
      obtain ⟨rfl, he, hafter⟩ := ih hrest
      exact ⟨congrArg (· :: before) (Except.ok.inj hx), he, hafter⟩

end FirstError

/-! ## Lists that are half done -/

theorem forall_mem_take_zero {α : Type} {P : α → Prop} {l : List α} : ∀ x ∈ l.take 0, P x := by
  rw [List.take_zero]
  exact List.forall_mem_nil P

theorem take_succ_of_getElem? {α : Type} {l : List α} {k : Nat} {x : α} (h : l[k]? = some x) :
    l.take (k + 1) = l.take k ++ [x] := by
  rw [List.take_add_one, h]
  rfl

theorem forall_mem_modify {P : Slot → Prop} {f : Slot → Slot} {slots : List Slot}
    (h : ∀ s ∈ slots, P s) (hf : ∀ s ∈ slots, P (f s)) (k : Nat) :
    ∀ s ∈ slots.modify k f, P s := by
  intro s hs
  obtain ⟨j, hj⟩ := List.getElem?_of_mem hs
  rw [List.getElem?_modify] at hj
  obtain ⟨s', hs', rfl⟩ := Option.map_eq_some_iff.mp hj
  have hmem := List.mem_of_getElem? hs'
  by_cases hk : k = j
  · rw [if_pos hk]
    exact hf s' hmem
  · rw [if_neg hk]
    exact h s' hmem

/-- What holds of the first slots holds of one more once that has been changed to obey it. -/
theorem forall_mem_take_modify {P : Slot → Prop} {f : Slot → Slot} {slots : List Slot} {k : Nat}
    (h : ∀ s ∈ slots.take k, P s) (hf : ∀ s ∈ slots, P (f s)) (hk : k < slots.length) :
    ∀ s ∈ (slots.modify k f).take (k + 1), P s := by
  intro s hs
  have hlength : (slots.take k).length = k := List.length_take_of_le (Nat.le_of_lt hk)
  rw [List.modify_eq_take_cons_drop hk, List.take_append, hlength,
    List.take_of_length_le (by omega), Nat.add_sub_cancel_left, List.take_succ_cons,
    List.take_zero] at hs
  rcases List.mem_append.mp hs with hbefore | hnext
  · exact h s hbefore
  · rw [List.mem_singleton.mp hnext]
    exact hf _ (List.getElem_mem hk)

namespace Slot

/-- The input has been closed and the worker waited for. -/
def IsShut (s : Slot) : Prop :=
  s.stdin = none ∧ s.status.isSome

/-- A slot that was waited for knows how its worker ended. -/
theorem isSome_wait_status (s : Slot) : s.wait.2.status.isSome := by
  show (s.close.status.or _).isSome
  rw [Option.isSome_or]
  exact Bool.or_true _

/-- A worker that was killed has no input and has been waited for. -/
theorem isShut_kill (s : Slot) : s.kill.IsShut := by
  refine ⟨s.close_stdin, ?_⟩
  show (s.status.or (some none)).isSome
  rw [Option.isSome_or]
  exact Bool.or_true _

end Slot

namespace LiveDrain

/-- The slot and the stream of a drain, which never change. -/
def which (t : LiveDrain) : Nat × Stream :=
  (t.slot, t.stream)

/-- The streams of some slots, in the order in which their drains are joined. -/
def streamsOf (slots : List Slot) : List (Nat × Stream) :=
  slots.flatMap fun s => [(s.number, .stdout), (s.number, .stderr)]

variable {outputs outputs' : Stream → Destination} {t t' : LiveDrain}

theorem Turn.which_eq (h : Turn outputs t t' outputs') : t'.which = t.which := by
  cases h with
  | written => rfl
  | lost => rfl
  | ignored => rfl
  | ended => rfl

/-- No write changes what a flush comes to. -/
theorem Turn.flush_eq (h : Turn outputs t t' outputs') (stream : Stream) :
    (outputs' stream).flush.1 = (outputs stream).flush.1 := by
  cases h with
  | written text =>
    by_cases hstream : stream = t.stream
    · rw [hstream, Function.update_self]
      rfl
    · rw [Function.update_of_ne hstream]
  | lost => rfl
  | ignored => rfl
  | ended => rfl

end LiveDrain

/-- Drains that have come to their ends make up a report, two for each slot. -/
theorem exists_endedDrains {slots : List Slot} {drains : List LiveDrain}
    (hwhich : drains.map LiveDrain.which = LiveDrain.streamsOf slots)
    (hended : ∀ t ∈ drains, t.ended = true) :
    ∃ outs errs, outs.length = slots.length ∧ errs.length = slots.length ∧
      drains = endedDrains slots outs errs := by
  induction slots generalizing drains with
  | nil =>
    refine ⟨[], [], rfl, rfl, ?_⟩
    exact List.map_eq_nil_iff.mp hwhich
  | cons s slots ih =>
    rw [LiveDrain.streamsOf, List.flatMap_cons] at hwhich
    obtain ⟨o, drains, rfl, ho, hwhich⟩ := List.map_eq_cons_iff.mp hwhich
    obtain ⟨e, drains, rfl, he, hwhich⟩ := List.map_eq_cons_iff.mp hwhich
    have hothers : ∀ t ∈ drains, t.ended = true := by
      intro t ht
      exact hended t (List.mem_cons_of_mem _ (List.mem_cons_of_mem _ ht))
    obtain ⟨outs, errs, houts, herrs, rfl⟩ := ih hwhich hothers
    refine ⟨o.stats :: outs, e.stats :: errs, congrArg (· + 1) houts, congrArg (· + 1) herrs, ?_⟩
    -- of the first two drains the stream is known, and that they have ended
    have hboth : o = ⟨s.number, .stdout, o.stats, true⟩ ∧
        e = ⟨s.number, .stderr, e.stats, true⟩ := by
      have hout := hended o List.mem_cons_self
      have herr := hended e (List.mem_cons_of_mem _ List.mem_cons_self)
      obtain ⟨slot, stream, stats, ended⟩ := o
      obtain ⟨slot', stream', stats', ended'⟩ := e
      obtain ⟨rfl, rfl⟩ := Prod.mk.inj ho
      obtain ⟨rfl, rfl⟩ := Prod.mk.inj he
      exact ⟨congrArg _ hout, congrArg _ herr⟩
    rw [hboth.1, hboth.2]
    rfl

/-! ## The invariant -/

/-- How far a source has been pulled when the handing out ends, and by which error it ended. -/
inductive Pulled (source : List SourceItem) : Option String → List SourceItem → Prop where
  | all (lines : List String) (source_eq : source = lines.map .ok) : Pulled source none []
  | upTo (lines : List String) (message : String) (rest : List SourceItem)
    (source_eq : source = lines.map .ok ++ .error message :: rest) :
    Pulled source (some message) rest

/-- What a pass comes to when all has been joined and flushed. -/
def verdict (sourceError : Option String) (outputError flushError : Option WriteError)
    (report : Report) : Except PassError Report :=
  match sourceError, outputError.or flushError with
  | some message, _ => .error (.source message)
  | none, some e => .error (.output e)
  | none, none => .ok report

/-- The report of slots with what some drains have read. -/
def reportOf (slots : List Slot) (drains : List LiveDrain) : Report :=
  ⟨drains.foldl LiveDrain.enter (slots.map fun s => s.report ⟨0, none⟩ ⟨0, none⟩)⟩

/-- The slots and the drains of a pool that has been started as a whole. Writing leaves the flush
of each destination as it was. -/
structure Opened (pool : List (Worker × Pipe)) (outputs : Stream → Destination)
    (slots : List Slot) (drains : List LiveDrain) (outputs' : Stream → Destination) : Prop where
  who_eq : slots.map Slot.who = (freshSlots pool).map Slot.who
  which_eq : drains.map LiveDrain.which = LiveDrain.streamsOf (freshSlots pool)
  flush_eq : ∀ stream, (outputs' stream).flush.1 = (outputs stream).flush.1

/-- What is known of a pass at each stage. -/
inductive Passing.Inv (program : String) (starts : List (Except String (Worker × Pipe)))
    (source : List SourceItem) (outputs : Stream → Destination) : Passing → Prop where
  | starting {left} (pool : List (Worker × Pipe)) (starts_eq : starts = pool.map .ok ++ left) :
    Inv program starts source outputs ⟨.starting left, freshSlots pool, [], source, outputs⟩
  | killing {cause k slots} (pool : List (Worker × Pipe))
    (left : List (Except String (Worker × Pipe)))
    (starts_eq : starts = pool.map .ok ++ .error cause :: left)
    (who_eq : slots.map Slot.who = (freshSlots pool).map Slot.who)
    (killed : ∀ s ∈ slots.take k, s.IsShut) :
    Inv program starts source outputs ⟨.killing cause k, slots, [], source, outputs⟩
  | notStarted {cause slots} (pool : List (Worker × Pipe))
    (left : List (Except String (Worker × Pipe)))
    (starts_eq : starts = pool.map .ok ++ .error cause :: left)
    (who_eq : slots.map Slot.who = (freshSlots pool).map Slot.who)
    (shut : ∀ s ∈ slots, s.IsShut) :
    Inv program starts source outputs
      ⟨.returned (.error (.spawn program cause)), slots, [], source, outputs⟩
  | handingOut {place slots drains rest outputs'} (pool : List (Worker × Pipe))
    (starts_eq : starts = pool.map .ok) (opened : Opened pool outputs slots drains outputs')
    (lines : List String) (source_eq : source = lines.map .ok ++ rest) :
    Inv program starts source outputs ⟨.handingOut place, slots, drains, rest, outputs'⟩
  | closing {failure k slots drains rest outputs'} (pool : List (Worker × Pipe))
    (starts_eq : starts = pool.map .ok) (opened : Opened pool outputs slots drains outputs')
    (pulled : Pulled source failure rest) (closed : ∀ s ∈ slots.take k, s.stdin = none) :
    Inv program starts source outputs ⟨.closing failure k, slots, drains, rest, outputs'⟩
  | waiting {failure k slots drains rest outputs'} (pool : List (Worker × Pipe))
    (starts_eq : starts = pool.map .ok) (opened : Opened pool outputs slots drains outputs')
    (pulled : Pulled source failure rest) (closed : ∀ s ∈ slots, s.stdin = none)
    (waited : ∀ s ∈ slots.take k, s.status.isSome) :
    Inv program starts source outputs ⟨.waiting failure k, slots, drains, rest, outputs'⟩
  | joining {failure k error reports slots drains rest outputs'} (pool : List (Worker × Pipe))
    (starts_eq : starts = pool.map .ok) (opened : Opened pool outputs slots drains outputs')
    (pulled : Pulled source failure rest) (shut : ∀ s ∈ slots, s.IsShut)
    (ended : ∀ t ∈ drains.take k, t.ended = true)
    (error_eq : error = (drains.take k).findSome? fun t => t.stats.failure)
    (report_eq : (⟨reports⟩ : Report) = reportOf slots (drains.take k)) :
    Inv program starts source outputs
      ⟨.joining failure k error reports, slots, drains, rest, outputs'⟩
  | flushing {stream slots drains rest outputs'} (pool : List (Worker × Pipe))
    (starts_eq : starts = pool.map .ok) (opened : Opened pool outputs slots drains outputs')
    (pulled : Pulled source none rest) (shut : ∀ s ∈ slots, s.IsShut)
    (ended : ∀ t ∈ drains, t.ended = true)
    (unfailed : drains.findSome? (fun t => t.stats.failure) = none)
    (flushed : stream = .stderr → (outputs .stdout).flush.1 = none) :
    Inv program starts source outputs
      ⟨.flushing stream (reportOf slots drains), slots, drains, rest, outputs'⟩
  | returned {failure result slots drains rest outputs'} (pool : List (Worker × Pipe))
    (starts_eq : starts = pool.map .ok) (opened : Opened pool outputs slots drains outputs')
    (pulled : Pulled source failure rest) (shut : ∀ s ∈ slots, s.IsShut)
    (ended : ∀ t ∈ drains, t.ended = true)
    (result_eq : result = verdict failure (drains.findSome? fun t => t.stats.failure)
      ((outputs .stdout).flush.1.or (outputs .stderr).flush.1) (reportOf slots drains)) :
    Inv program starts source outputs ⟨.returned result, slots, drains, rest, outputs'⟩

namespace Opened

variable {pool : List (Worker × Pipe)} {outputs outputs' outputs'' : Stream → Destination}
  {slots : List Slot} {drains : List LiveDrain}

theorem modify (h : Opened pool outputs slots drains outputs') {f : Slot → Slot}
    (hf : ∀ s, (f s).who = s.who) (k : Nat) :
    Opened pool outputs (slots.modify k f) drains outputs' where
  who_eq := (map_modify_of_eq hf slots k).trans h.who_eq
  which_eq := h.which_eq
  flush_eq := h.flush_eq

theorem turn (h : Opened pool outputs slots drains outputs') {k : Nat} {t t' : LiveDrain}
    (hrunning : drains[k]? = some t) (hturn : LiveDrain.Turn outputs' t t' outputs'') :
    Opened pool outputs slots (drains.set k t') outputs'' where
  who_eq := h.who_eq
  which_eq := by
    obtain ⟨hk, rfl⟩ := List.getElem?_eq_some_iff.mp hrunning
    have hmapped : k < (drains.map LiveDrain.which).length := by
      rw [List.length_map]
      exact hk
    have hself : drains[k].which = (drains.map LiveDrain.which)[k] :=
      (List.getElem_map LiveDrain.which).symm
    rw [List.map_set, hturn.which_eq, hself, List.set_getElem_self]
    exact h.which_eq
  flush_eq stream := (hturn.flush_eq stream).trans (h.flush_eq stream)

theorem flush (h : Opened pool outputs slots drains outputs') (stream : Stream) :
    Opened pool outputs slots drains
      (Function.update outputs' stream (outputs' stream).flush.2) where
  who_eq := h.who_eq
  which_eq := h.which_eq
  flush_eq stream' := by
    rw [← h.flush_eq stream']
    by_cases hstream : stream' = stream
    · rw [hstream, Function.update_self]
      rfl
    · rw [Function.update_of_ne hstream]

/-- Both flushes come to what the last one does, if the first one goes well. -/
theorem flushes_eq_of_last (h : Opened pool outputs slots drains outputs')
    {failure : Option WriteError} (hlast : (outputs' .stderr).flush.1 = failure)
    (hfirst : (outputs .stdout).flush.1 = none) :
    (outputs .stdout).flush.1.or (outputs .stderr).flush.1 = failure := by
  rw [h.flush_eq] at hlast
  rw [hfirst, hlast]
  rfl

/-- Both flushes come to the first one that fails. -/
theorem flushes_eq_of_failed (h : Opened pool outputs slots drains outputs') {stream : Stream}
    {e : WriteError} (hfailed : (outputs' stream).flush.1 = some e)
    (hbefore : stream = .stderr → (outputs .stdout).flush.1 = none) :
    (outputs .stdout).flush.1.or (outputs .stderr).flush.1 = some e := by
  cases stream with
  | stdout =>
    rw [h.flush_eq] at hfailed
    rw [hfailed]
    rfl
  | stderr => exact h.flushes_eq_of_last hfailed (hbefore rfl)

end Opened

namespace Passing

variable {program : String} {separator : Bytes} {starts : List (Except String (Worker × Pipe))}
  {source : List SourceItem} {outputs : Stream → Destination}

/-- A drain that takes a turn has not been joined, and there is none before all workers have been
started or after the pass has returned. -/
theorem Inv.drain {stage : Stage} {slots : List Slot} {drains : List LiveDrain}
    {rest : List SourceItem} {outputs' outputs'' : Stream → Destination} {k : Nat}
    {t t' : LiveDrain}
    (h : Inv program starts source outputs ⟨stage, slots, drains, rest, outputs'⟩)
    (hrunning : drains[k]? = some t) (hunended : t.ended = false)
    (hturn : LiveDrain.Turn outputs' t t' outputs'') :
    Inv program starts source outputs ⟨stage, slots, drains.set k t', rest, outputs''⟩ := by
  -- a drain has not ended, so the pass is not behind the join
  have hnot : ¬ ∀ t ∈ drains, t.ended = true := by
    intro hended
    exact Bool.false_ne_true (hunended.symm.trans (hended t (List.mem_of_getElem? hrunning)))
  cases h with
  | starting => exact nomatch hrunning
  | killing => exact nomatch hrunning
  | notStarted => exact nomatch hrunning
  | handingOut pool hstarts hopened lines hsource =>
    exact .handingOut pool hstarts (hopened.turn hrunning hturn) lines hsource
  | closing pool hstarts hopened hpulled hclosed =>
    exact .closing pool hstarts (hopened.turn hrunning hturn) hpulled hclosed
  | waiting pool hstarts hopened hpulled hclosed hwaited =>
    exact .waiting pool hstarts (hopened.turn hrunning hturn) hpulled hclosed hwaited
  | @joining _ next _ _ _ _ _ _ pool hstarts hopened hpulled hshut hended herror hreport =>
    -- the drains that have been joined have ended, so this one is none of them
    have hjoined : (drains.set k t').take next = drains.take next := by
      refine List.take_set_of_le ?_
      by_contra hlt
      have hmem : t ∈ drains.take next := by
        refine List.mem_of_getElem? (i := k) ?_
        rw [List.getElem?_take_of_lt (Nat.lt_of_not_le hlt)]
        exact hrunning
      exact Bool.false_ne_true (hunended.symm.trans (hended t hmem))
    refine .joining pool hstarts (hopened.turn hrunning hturn) hpulled hshut ?_ ?_ ?_
    · rw [hjoined]
      exact hended
    · rw [hjoined]
      exact herror
    · rw [hjoined]
      exact hreport
  | flushing pool hstarts hopened hpulled hshut hended => exact absurd hended hnot
  | returned pool hstarts hopened hpulled hshut hended => exact absurd hended hnot

/-- No step breaks the invariant. -/
theorem Inv.step {st st' : Passing} (h : Inv program starts source outputs st)
    (hstep : Step program separator st st') : Inv program starts source outputs st' := by
  cases hstep with
  | started =>
    cases h with
    | starting pool hstarts =>
      rw [← freshSlots_concat]
      refine .starting _ ?_
      rw [hstarts, List.map_append, List.append_assoc]
      rfl
  | failedToStart =>
    cases h with
    | starting pool hstarts =>
      exact .killing pool _ hstarts rfl forall_mem_take_zero
  | killed hk =>
    cases h with
    | killing pool left hstarts hwho hkilled =>
      refine .killing pool left hstarts ((map_modify_of_eq Slot.who_kill _ _).trans hwho) ?_
      exact forall_mem_take_modify hkilled (fun s _ => s.isShut_kill) hk
  | allKilled hk =>
    cases h with
    | killing pool left hstarts hwho hkilled =>
      rw [hk, List.take_length] at hkilled
      exact .notStarted pool left hstarts hwho hkilled
  | allStarted =>
    cases h with
    | starting pool hstarts =>
      rw [List.append_nil] at hstarts
      refine .handingOut pool hstarts ⟨rfl, ?_, fun _ => rfl⟩ [] rfl
      rw [List.map_flatMap]
      rfl
  | @sent _ line =>
    cases h with
    | handingOut pool hstarts hopened lines hsource =>
      refine .handingOut pool hstarts (hopened.modify (fun s => s.who_send _ _) _)
        (lines ++ [line]) ?_
      rw [hsource, List.map_append, List.append_assoc]
      rfl
  | sourceFailed =>
    cases h with
    | handingOut pool hstarts hopened lines hsource =>
      exact .closing pool hstarts hopened (.upTo lines _ _ hsource) forall_mem_take_zero
  | sourceEnded =>
    cases h with
    | handingOut pool hstarts hopened lines hsource =>
      rw [List.append_nil] at hsource
      exact .closing pool hstarts hopened (.all lines hsource) forall_mem_take_zero
  | closed hk =>
    cases h with
    | closing pool hstarts hopened hpulled hclosed =>
      refine .closing pool hstarts (hopened.modify Slot.who_close _) hpulled ?_
      exact forall_mem_take_modify hclosed (fun s _ => s.close_stdin) hk
  | allClosed hk =>
    cases h with
    | closing pool hstarts hopened hpulled hclosed =>
      rw [hk, List.take_length] at hclosed
      exact .waiting pool hstarts hopened hpulled hclosed forall_mem_take_zero
  | waited hk =>
    cases h with
    | waiting pool hstarts hopened hpulled hclosed hwaited =>
      refine .waiting pool hstarts (hopened.modify Slot.who_wait _) hpulled ?_ ?_
      · exact forall_mem_modify (f := fun s => s.wait.2) hclosed (fun s _ => s.close_stdin) _
      · exact forall_mem_take_modify hwaited (fun s _ => s.isSome_wait_status) hk
  | allWaited hk =>
    cases h with
    | waiting pool hstarts hopened hpulled hclosed hwaited =>
      rw [hk, List.take_length] at hwaited
      refine .joining pool hstarts hopened hpulled ?_ forall_mem_take_zero rfl rfl
      intro s hs
      exact ⟨hclosed s hs, hwaited s hs⟩
  | @joined _ _ _ _ t _ _ _ _ hnext hended =>
    cases h with
    | joining pool hstarts hopened hpulled hshut hbefore herror hreport =>
      -- the drains that have been joined are those before, and this one
      have htake := take_succ_of_getElem? hnext
      refine .joining pool hstarts hopened hpulled hshut ?_ ?_ ?_
      · rw [htake]
        exact List.forall_mem_append.mpr ⟨hbefore, List.forall_mem_singleton.mpr hended⟩
      · rw [htake, List.findSome?_append, ← herror, List.findSome?_singleton]
      · rw [htake, reportOf, List.foldl_append]
        have hreports := congrArg Report.slots hreport
        exact congrArg (fun reports => (⟨LiveDrain.enter reports t⟩ : Report)) hreports
  | sourceError hk =>
    cases h with
    | joining pool hstarts hopened hpulled hshut hended herror hreport =>
      rw [hk, List.take_length] at hended
      exact .returned pool hstarts hopened hpulled hshut hended rfl
  | outputError hk =>
    cases h with
    | joining pool hstarts hopened hpulled hshut hended herror hreport =>
      rw [hk, List.take_length] at hended herror
      refine .returned pool hstarts hopened hpulled hshut hended ?_
      rw [← herror]
      rfl
  | allJoined hk =>
    cases h with
    | joining pool hstarts hopened hpulled hshut hended herror hreport =>
      rw [hk, List.take_length] at hended herror hreport
      rw [hreport]
      exact .flushing pool hstarts hopened hpulled hshut hended herror.symm nofun
  | @flushFailed stream _ _ _ _ _ _ hfailed =>
    cases h with
    | flushing pool hstarts hopened hpulled hshut hended hunfailed hflushed =>
      refine .returned pool hstarts (hopened.flush stream) hpulled hshut hended ?_
      rw [hunfailed, hopened.flushes_eq_of_failed hfailed hflushed]
      rfl
  | stdoutFlushed hok =>
    cases h with
    | flushing pool hstarts hopened hpulled hshut hended hunfailed hflushed =>
      refine .flushing pool hstarts (hopened.flush .stdout) hpulled hshut hended hunfailed ?_
      intro _
      rw [← hopened.flush_eq]
      exact hok
  | stderrFlushed hok =>
    cases h with
    | flushing pool hstarts hopened hpulled hshut hended hunfailed hflushed =>
      refine .returned pool hstarts (hopened.flush .stderr) hpulled hshut hended ?_
      rw [hunfailed, hopened.flushes_eq_of_last hok (hflushed rfl)]
      rfl
  | drain hrunning hunended hturn => exact h.drain hrunning hunended hturn

/-- What holds before anything has happened holds of every run. -/
theorem Inv.runs {st st' : Passing} (h : Inv program starts source outputs st)
    (hruns : Runs program separator st st') : Inv program starts source outputs st' := by
  induction hruns with
  | refl => exact h
  | tail _ hstep ih => exact ih.step hstep

end Passing

/-! ## What a pass returns -/

/-- The failure that counts is that of the first drain that has one. -/
theorem firstFailed_iff {drains : List LiveDrain} {e : WriteError} :
    (drains.findSome? fun t => t.stats.failure) = some e ↔
      ∃ before t after, drains = before ++ t :: after ∧ t.stats.failure = some e ∧
        ∀ t' ∈ before, t'.stats.failure = none :=
  List.findSome?_eq_some_iff

/-- The report of a pass has the lines that the drains of each slot have read. -/
theorem reportOf_endedDrains {slots : List Slot} {outs errs : List DrainStats}
    (hnumbers : Numbered 1 slots) (houts : outs.length = slots.length)
    (herrs : errs.length = slots.length) :
    reportOf slots (endedDrains slots outs errs) =
      ⟨(slots.zip (outs.zip errs)).map fun (s, o, e) => s.report o e⟩ := by
  have hreports := foldl_enter [] hnumbers houts herrs
  rw [List.nil_append, List.nil_append] at hreports
  rw [reportOf, hreports]

/-- Every way out of a pass, for workers of which any may fail to start or stop reading, a source
that may fail at any item, and destinations that may refuse any record. The pass as it is run is
one of the runs; and whenever a run has returned, the inputs of all workers started have been
closed, the workers have been waited for, and all drains have come to the end of their streams.
After a start that failed nothing has been pulled or written. Otherwise the first error of the
source is returned; else the first error of a drain, slot by slot and standard output first; else
that of a flush; else the report. -/
theorem every_way_out_shuts_down (program : String) (separator : Bytes)
    (starts : List (Except String (Worker × Pipe))) (source : List SourceItem)
    (out err : Destination) :
    let start := Passing.start starts source (outputsOf out err)
    let pass := Pass.run program (freshStarts starts) separator source out err
    (∃ drains, Passing.Runs program separator start
      ⟨.returned pass.result, pass.slots, drains, pass.rest,
        outputsOf pass.stdout pass.stderr⟩) ∧
    ∀ {result slots drains rest outputs},
      Passing.Runs program separator start ⟨.returned result, slots, drains, rest, outputs⟩ →
      (∀ s ∈ slots, s.stdin = none ∧ s.status.isSome) ∧ (∀ t ∈ drains, t.ended = true) ∧
      -- a worker cannot be started
      (∀ (pool : List (Worker × Pipe)) cause left,
        starts = pool.map .ok ++ .error cause :: left →
        result = .error (.spawn program cause) ∧
          slots.map Slot.who = (freshSlots pool).map Slot.who ∧ drains = [] ∧ rest = source ∧
          outputs = outputsOf out err) ∧
      -- all workers have been started
      ∀ pool : List (Worker × Pipe), starts = pool.map .ok →
        slots.map Slot.who = (freshSlots pool).map Slot.who ∧
        drains.map LiveDrain.which = LiveDrain.streamsOf slots ∧
        (∀ (lines : List String) message more,
          source = lines.map .ok ++ .error message :: more →
          result = .error (.source message) ∧ rest = more) ∧
        ∀ lines : List String, source = lines.map .ok → rest = [] ∧
          (∀ before t after e, drains = before ++ t :: after →
            (∀ t' ∈ before, t'.stats.failure = none) → t.stats.failure = some e →
            result = .error (.output e)) ∧
          ((∀ t ∈ drains, t.stats.failure = none) →
            (∀ e, out.flush.1.or err.flush.1 = some e → result = .error (.output e)) ∧
            (out.flush.1.or err.flush.1 = none →
              ∃ outs errs, outs.length = slots.length ∧ errs.length = slots.length ∧
                drains = endedDrains slots outs errs ∧
                result = .ok ⟨(slots.zip (outs.zip errs)).map fun (s, o, e) => s.report o e⟩)) := by
  intro start pass
  refine ⟨exists_returned program separator starts source out err, ?_⟩
  intro result slots drains rest outputs hruns
  have hstart : Passing.Inv program starts source (outputsOf out err) start := .starting [] rfl
  have hinv := hstart.runs hruns
  cases hinv with
  | notStarted pool left hstarts hwho hshut =>
    refine ⟨hshut, nofun, ?_, ?_⟩
    · intro pool' cause' left' hstarts'
      obtain ⟨rfl, rfl, -⟩ := eq_of_append_error (hstarts.symm.trans hstarts')
      exact ⟨rfl, hwho, rfl, rfl, rfl⟩
    · intro pool' hstarts'
      exact absurd (hstarts'.symm.trans hstarts) map_ok_ne_append_error
  | @returned failure _ _ _ _ _ pool hstarts hopened hpulled hshut hended hresult =>
    refine ⟨hshut, hended, ?_, ?_⟩
    · intro pool' cause left hstarts'
      exact absurd (hstarts.symm.trans hstarts') map_ok_ne_append_error
    · intro pool' hstarts'
      obtain rfl : pool = pool' := by
        refine List.map_injective_iff.mpr ?_ (hstarts.symm.trans hstarts')
        exact fun _ _ => Except.ok.inj
      have hwhich : drains.map LiveDrain.which = LiveDrain.streamsOf slots :=
        hopened.which_eq.trans (flatMap_number_congr hopened.who_eq.symm fun number =>
          [(number, Stream.stdout), (number, Stream.stderr)])
      refine ⟨hopened.who_eq, hwhich, ?_, ?_⟩
      · intro lines message more hsource
        cases hpulled with
        | all lines' hall => exact absurd (hall.symm.trans hsource) map_ok_ne_append_error
        | upTo lines' message' rest hupTo =>
          obtain ⟨-, rfl, rfl⟩ := eq_of_append_error (hupTo.symm.trans hsource)
          exact ⟨hresult, rfl⟩
      · intro lines hsource
        cases hpulled with
        | upTo lines' message' rest hupTo =>
          exact absurd (hsource.symm.trans hupTo) map_ok_ne_append_error
        | all lines' hall =>
          refine ⟨rfl, ?_, ?_⟩
          · intro before t after e hdrains hbefore hfailure
            rw [firstFailed_iff.mpr ⟨before, t, after, hdrains, hfailure, hbefore⟩] at hresult
            exact hresult
          · intro hunfailed
            rw [List.findSome?_eq_none_iff.mpr hunfailed] at hresult
            refine ⟨?_, ?_⟩
            · intro e hflush
              have hboth : (outputsOf out err .stdout).flush.1.or
                  (outputsOf out err .stderr).flush.1 = some e := hflush
              rw [hboth] at hresult
              exact hresult
            · intro hflush
              have hboth : (outputsOf out err .stdout).flush.1.or
                  (outputsOf out err .stderr).flush.1 = none := hflush
              obtain ⟨outs, errs, houts, herrs, hdrains⟩ := exists_endedDrains hwhich hended
              refine ⟨outs, errs, houts, herrs, hdrains, ?_⟩
              rw [hboth, hdrains,
                reportOf_endedDrains (numbered_of_who hopened.who_eq) houts herrs] at hresult
              exact hresult

/-- The source fails, one of the workers reads nothing and nothing can be written: the error of the
source is returned, and both workers have ended. If the second one cannot be started, the first is
ended and nothing is pulled. -/
theorem way_out_past_three_failures :
    let copying : Worker × Pipe := (.copy, ⟨.empty, none⟩)
    let unread : Worker × Pipe := (.copy, ⟨.empty, some 0⟩)
    let source : List SourceItem := [.ok "a", .error "e", .ok "b"]
    let closed : Destination := { closesAfter := some 0 }
    (∃ slots drains outputs, Passing.Runs "cat" [10]
        (.start [.ok copying, .ok unread] source (outputsOf closed {}))
        ⟨.returned (.error (.source "e")), slots, drains, [.ok "b"], outputs⟩ ∧
      slots.length = 2 ∧ (∀ s ∈ slots, s.IsShut) ∧ ∀ t ∈ drains, t.ended = true) ∧
    ∃ slots, Passing.Runs "cat" [10]
        (.start [.ok copying, .error "gone"] source (outputsOf closed {}))
        ⟨.returned (.error (.spawn "cat" "gone")), slots, [], source, outputsOf closed {}⟩ ∧
      slots.length = 1 ∧ ∀ s ∈ slots, s.IsShut := by
  intro copying unread source closed
  refine ⟨?_, ?_⟩
  · obtain ⟨⟨drains, hruns⟩, hways⟩ :=
      every_way_out_shuts_down "cat" [10] [.ok copying, .ok unread] source closed {}
    obtain ⟨hshut, hended, -, hstarted⟩ := hways hruns
    obtain ⟨hwho, -, hsource, -⟩ := hstarted [copying, unread] rfl
    obtain ⟨hresult, hrest⟩ := hsource ["a"] "e" [.ok "b"] rfl
    have hlength := congrArg List.length hwho
    rw [List.length_map, List.length_map] at hlength
    rw [hresult, hrest] at hruns
    exact ⟨_, drains, _, hruns, hlength, hshut, hended⟩
  · obtain ⟨⟨drains, hruns⟩, hways⟩ :=
      every_way_out_shuts_down "cat" [10] [.ok copying, .error "gone"] source closed {}
    obtain ⟨hshut, -, hfailed, -⟩ := hways hruns
    obtain ⟨hresult, hwho, hdrains, hrest, houtputs⟩ := hfailed [copying] "gone" [] rfl
    have hlength := congrArg List.length hwho
    rw [List.length_map, List.length_map] at hlength
    rw [hresult, hdrains, hrest, houtputs] at hruns
    exact ⟨_, hruns, hlength, hshut⟩

end LineQuery.Pool
