import LineQuery.Proofs.Pool.Shares

/-! # Handing out

The lines of a source are dealt to the slots of a pool in turn. What a slot does with its lines
depends on nothing but the slot: it takes them until a write to its worker fails, and drops all
later ones. So every line counts once, as sent or as dropped, at one slot, and a worker that dies
makes no difference to the others.
-/

namespace LineQuery.Pool

open LineQuery.Text (Bytes)

/-! ## One slot -/

namespace Slot

/-- The slot after a line that its buffer has taken. -/
def fed (s : Slot) (buffer : Buffer) (pipe : Pipe) : Slot :=
  { s with stdin := some buffer, pipe := pipe, sent := s.sent + 1 }

/-- What comes of sending a line. -/
inductive Sends (s : Slot) : Bool × Slot → Prop where
  /-- The buffer takes the line. -/
  | sent (buffer : Buffer) (pipe : Pipe) (alive : s.isAlive = true) :
    Sends s (true, s.fed buffer pipe)
  /-- The line is dropped, and the slot is dead after that. -/
  | lost (pipe : Pipe) : Sends s (false, { s with pipe := pipe }.drop)

/-- A slot that is sent a line is fed it, or drops it because its worker has gone. -/
theorem sends (s : Slot) (line separator : Bytes) : Sends s (s.send line separator) := by
  unfold send
  split
  · exact .lost s.pipe
  · rename_i buffer hbuffer
    have halive : s.isAlive = true := by
      rw [isAlive, hbuffer]
      rfl
    split
    · rename_i pipe hline
      exact .lost pipe
    · split
      · rename_i pipe hseparator
        exact .lost pipe
      · rename_i buffer pipe hseparator
        exact .sent buffer pipe halive

variable {s : Slot} {buffer : Buffer} {pipe : Pipe} {separator : Bytes}

@[simp] theorem fed_sent : (s.fed buffer pipe).sent = s.sent + 1 := rfl

@[simp] theorem fed_dropped : (s.fed buffer pipe).dropped = s.dropped := rfl

@[simp] theorem drop_dropped : s.drop.dropped = s.dropped + 1 := rfl

/-- The slot after lines have been sent to it one after another. -/
def sendAll (s : Slot) (separator : Bytes) (lines : List String) : Slot :=
  lines.foldl (fun s line => (s.send (Text.encodeUtf8 line) separator).2) s

@[simp] theorem sendAll_cons (s : Slot) (separator : Bytes) (line : String) (lines : List String) :
    s.sendAll separator (line :: lines) =
      (s.send (Text.encodeUtf8 line) separator).2.sendAll separator lines := rfl

/-- Those of some lines that are sent, when a slot is to send them one after another. -/
def taken (s : Slot) (separator : Bytes) : List String → List String
  | [] => []
  | line :: lines =>
    let (sent, s) := s.send (Text.encodeUtf8 line) separator
    if sent then line :: s.taken separator lines else s.taken separator lines

/-- A slot has the same number after lines have been sent to it. -/
theorem sendAll_number (s : Slot) (separator : Bytes) (lines : List String) :
    (s.sendAll separator lines).number = s.number := by
  induction lines generalizing s with
  | nil => rfl
  | cons line lines ih =>
    have hsends := s.sends (Text.encodeUtf8 line) separator
    rw [sendAll_cons, ih]
    generalize s.send (Text.encodeUtf8 line) separator = outcome at hsends ⊢
    cases hsends with
    | sent => rfl
    | lost => rfl

/-- A slot that is dead stays dead: it takes no line, and counts all of them as dropped. -/
theorem sendAll_of_dead (hdead : s.isAlive = false) (separator : Bytes) (lines : List String) :
    (s.sendAll separator lines).isAlive = false ∧ s.taken separator lines = [] ∧
      (s.sendAll separator lines).sent = s.sent ∧
      (s.sendAll separator lines).dropped = s.dropped + lines.length := by
  induction lines generalizing s with
  | nil => exact ⟨hdead, rfl, rfl, rfl⟩
  | cons line lines ih =>
    have hsends := s.sends (Text.encodeUtf8 line) separator
    rw [taken, sendAll_cons, List.length_cons]
    generalize s.send (Text.encodeUtf8 line) separator = outcome at hsends ⊢
    cases hsends with
    | sent buffer pipe halive => rw [hdead] at halive; exact nomatch halive
    | lost pipe =>
      obtain ⟨hstays, htaken, hsent, hdropped⟩ := ih (s := { s with pipe := pipe }.drop) rfl
      rw [drop_dropped] at hdropped
      refine ⟨hstays, htaken, hsent, ?_⟩
      rw [hdropped, Nat.add_assoc, Nat.add_comm 1]

/-- A slot takes the first of the lines, as many as it counts as sent, and counts all the others as
dropped. -/
theorem sendAll_counts (s : Slot) (separator : Bytes) (lines : List String) :
    ∃ count ≤ lines.length, s.taken separator lines = lines.take count ∧
      (s.sendAll separator lines).sent = s.sent + count ∧
      (s.sendAll separator lines).dropped + count = s.dropped + lines.length := by
  induction lines generalizing s with
  | nil => exact ⟨0, Nat.le_refl 0, rfl, rfl, rfl⟩
  | cons line lines ih =>
    have hsends := s.sends (Text.encodeUtf8 line) separator
    rw [taken, sendAll_cons, List.length_cons]
    generalize s.send (Text.encodeUtf8 line) separator = outcome at hsends ⊢
    cases hsends with
    | sent buffer pipe halive =>
      obtain ⟨count, hcount, htaken, hsent, hdropped⟩ := ih (s.fed buffer pipe)
      rw [fed_sent] at hsent
      rw [fed_dropped] at hdropped
      refine ⟨count + 1, Nat.succ_le_succ hcount, congrArg (line :: ·) htaken, ?_, ?_⟩
      · rw [hsent, Nat.add_assoc, Nat.add_comm 1]
      · rw [← Nat.add_assoc, hdropped, Nat.add_assoc]
    | lost pipe =>
      -- From here on the slot is dead.
      obtain ⟨-, htaken, hsent, hdropped⟩ := sendAll_of_dead (s := { s with pipe := pipe }.drop)
        rfl separator lines
      rw [drop_dropped] at hdropped
      refine ⟨0, Nat.zero_le _, htaken, hsent, ?_⟩
      rw [Nat.add_zero, hdropped, Nat.add_assoc, Nat.add_comm 1]

/-- The end of the input of a slot changes no count. -/
theorem finish_counts (s : Slot) :
    s.finish.1.number = s.number ∧ s.finish.1.sent = s.sent ∧ s.finish.1.dropped = s.dropped := by
  have hclose : s.close.number = s.number ∧ s.close.sent = s.sent ∧
      s.close.dropped = s.dropped := by
    unfold close
    split
    · exact ⟨rfl, rfl, rfl⟩
    · exact ⟨rfl, rfl, rfl⟩
  exact hclose

end Slot

/-! ## All slots -/

theorem length_distribute (separator : Bytes) (slots : List Slot) (i : Nat)
    (source : List SourceItem) :
    (distribute separator slots i source).1.length = slots.length := by
  induction source generalizing slots i with
  | nil => rfl
  | cons item source ih =>
    cases item with
    | error message => rfl
    | ok line =>
      rw [distribute, ih, List.length_modify]

/-- Each slot sends the lines that are dealt to its place, and nothing else happens to it. -/
theorem getElem?_distribute (separator : Bytes) {slots : List Slot} (hslots : 0 < slots.length)
    (m k : Nat) (source : List SourceItem) :
    (distribute separator slots (m % slots.length) source).1[k]? =
      slots[k]?.map fun s =>
        s.sendAll separator (dealt slots.length k m (linesBeforeError source)) := by
  induction source generalizing slots m with
  | nil => simp [distribute, linesBeforeError, Slot.sendAll]
  | cons item source ih =>
    cases item with
    | error message => simp [distribute, linesBeforeError, Slot.sendAll]
    | ok line =>
      rw [distribute, linesBeforeError, List.length_modify, ← succ_mod hslots]
      -- the line falls to one slot; the rest of the source is dealt from the next one on
      let sent := slots.modify (m % slots.length) fun s =>
        (s.send (Text.encodeUtf8 line) separator).2
      have hlength : sent.length = slots.length := List.length_modify ..
      have hrest := ih (hlength ▸ hslots : 0 < sent.length) (m + 1)
      rw [hlength] at hrest
      rw [hrest, List.getElem?_modify, dealt_cons]
      by_cases hturn : m % slots.length = k
      · rw [if_pos hturn]
        cases slots[k]? with
        | none => rfl
        | some s => simp [hturn, Slot.sendAll]
      · rw [if_neg hturn]
        cases slots[k]? with
        | none => rfl
        | some s => simp [hturn]

/-- The items of a source are the lines before its first error, that error if there is one, and
what is not looked at. -/
theorem distribute_rest (separator : Bytes) (slots : List Slot) (i : Nat)
    (source : List SourceItem) :
    ∃ ending, source = (linesBeforeError source).map Except.ok ++ ending ∧
      (ending = [] ∧ (distribute separator slots i source).2 = (none, []) ∨
        ∃ message rest, ending = .error message :: rest ∧
          (distribute separator slots i source).2 = (some message, rest)) := by
  induction source generalizing slots i with
  | nil => exact ⟨[], rfl, .inl ⟨rfl, rfl⟩⟩
  | cons item source ih =>
    cases item with
    | error message => exact ⟨_, rfl, .inr ⟨message, source, rfl, rfl⟩⟩
    | ok line =>
      obtain ⟨ending, hsource, hending⟩ := ih
        (slots.modify i fun s => (s.send (Text.encodeUtf8 line) separator).2)
        (if i + 1 < slots.length then i + 1 else 0)
      refine ⟨ending, ?_, ?_⟩
      · rw [linesBeforeError, List.map_cons, List.cons_append, ← hsource]
      · rw [distribute, List.length_modify]
        exact hending

/-! ## Whole passes -/

theorem length_drainAll (stream : Response → Bytes) (ended : List (Slot × Response))
    (d : Destination) : (drainAll stream ended d).1.length = ended.length := by
  induction ended generalizing d with
  | nil => rfl
  | cons first ended ih => exact congrArg (· + 1) (ih _)

/-- Draining and reporting change no slot and look at no item of the source. -/
theorem conclude_slots (ended : List (Slot × Response)) (sourceError : Option String)
    (rest : List SourceItem) (out err : Destination) :
    (conclude ended sourceError rest out err).slots = ended.map Prod.fst ∧
      (conclude ended sourceError rest out err).rest = rest := by
  unfold conclude
  dsimp only
  split
  · exact ⟨rfl, rfl⟩
  · exact ⟨rfl, rfl⟩
  · split
    · exact ⟨rfl, rfl⟩
    · split
      · exact ⟨rfl, rfl⟩
      · exact ⟨rfl, rfl⟩

/-- A report has the counts of the slots. -/
theorem conclude_report {ended : List (Slot × Response)} {sourceError : Option String}
    {rest : List SourceItem} {out err : Destination} {report : Report}
    (h : (conclude ended sourceError rest out err).result = .ok report) :
    report.slots.map (fun r => (r.slot, r.sent, r.dropped)) =
      ended.map fun e => (e.1.number, e.1.sent, e.1.dropped) := by
  unfold conclude at h
  dsimp only at h
  split at h
  · exact nomatch h
  · exact nomatch h
  · split at h
    · exact nomatch h
    · split at h
      · exact nomatch h
      · obtain rfl := Except.ok.inj h
        -- No count of a slot comes from the statistics of its drains.
        have hslots : ((ended.map Prod.fst).zip ((drainAll (·.stdout) ended out).1.zip
            (drainAll (·.stderr) ended err).1)).map Prod.fst = ended.map Prod.fst := by
          refine List.map_fst_zip ?_
          rw [List.length_map, List.length_zip, length_drainAll, length_drainAll, Nat.min_self]
        have hcounts := congrArg (List.map fun s : Slot => (s.number, s.sent, s.dropped)) hslots
        rw [List.map_map, List.map_map] at hcounts
        rw [List.map_map]
        exact hcounts

/-- The totals of a report are those of its slots. -/
theorem Report.sent_add_dropped (report : Report) :
    report.sent + report.dropped = (report.slots.map fun r => r.sent + r.dropped).sum := by
  rw [List.sum_map_add]
  exact congrArg₂ (· + ·) List.foldr_map.symm List.foldr_map.symm

theorem startAll_ok (slots : List Slot) : startAll (slots.map .ok) = (slots, none) := by
  induction slots with
  | nil => rfl
  | cons s slots ih => rw [List.map_cons, startAll, ih]

theorem sum_map_eq_sum_range {α : Type} {xs : List α} {f : α → Nat} {g : Nat → Nat}
    (h : ∀ k x, xs[k]? = some x → f x = g k) :
    (xs.map f).sum = ∑ k ∈ Finset.range xs.length, g k := by
  induction xs generalizing g with
  | nil => rfl
  | cons x xs ih =>
    have hrest := ih (g := fun k => g (k + 1)) fun k => h (k + 1)
    rw [List.map_cons, List.sum_cons, List.length_cons, Finset.sum_range_succ', hrest,
      h 0 x rfl, Nat.add_comm]

/-- The slots of workers that have just been started, each with the pipe before it. -/
def freshSlots (pool : List (Worker × Pipe)) : List Slot :=
  pool.mapIdx fun k worker => Slot.start (k + 1) worker.1 worker.2

variable {pool : List (Worker × Pipe)}

theorem length_freshSlots : (freshSlots pool).length = pool.length :=
  List.length_mapIdx

theorem getElem?_freshSlots (k : Nat) : (freshSlots pool)[k]? =
    pool[k]?.map fun worker => Slot.start (k + 1) worker.1 worker.2 :=
  List.getElem?_mapIdx

/-- What a slot has come to at the end of a pass in which it was to send some lines. -/
def Slot.after (s : Slot) (separator : Bytes) (lines : List String) : Slot :=
  (s.sendAll separator lines).finish.1

/-- Behind a pass each slot has had its share of the lines, and nothing else. -/
theorem getElem?_run_slots (program : String) (hpool : pool ≠ []) (separator : Bytes)
    (source : List SourceItem) (out err : Destination) (k : Nat) :
    (Pass.run program ((freshSlots pool).map .ok) separator source out err).slots[k]? =
      pool[k]?.map fun worker => (Slot.start (k + 1) worker.1 worker.2).after separator
        (dealt pool.length k 0 (linesBeforeError source)) := by
  have hslots : 0 < (freshSlots pool).length := by
    rw [length_freshSlots]
    exact List.length_pos_of_ne_nil hpool
  have hdealt := getElem?_distribute separator hslots 0 k source
  rw [Nat.zero_mod, length_freshSlots, getElem?_freshSlots] at hdealt
  rw [Pass.run, startAll_ok]
  dsimp only
  rw [(conclude_slots _ _ _ _ _).1, List.map_map, List.getElem?_map, hdealt, Option.map_map,
    Option.map_map]
  rfl

theorem length_run_slots (program : String) (separator : Bytes) (source : List SourceItem)
    (out err : Destination) :
    (Pass.run program ((freshSlots pool).map .ok) separator source out err).slots.length =
      pool.length := by
  rw [Pass.run, startAll_ok]
  dsimp only
  rw [(conclude_slots _ _ _ _ _).1, List.length_map, List.length_map, length_distribute,
    length_freshSlots]

/-- What a pass has not looked at is what comes after the first error of its source. -/
theorem run_rest (program : String) (separator : Bytes) (source : List SourceItem)
    (out err : Destination) :
    ∃ ending, source = (linesBeforeError source).map Except.ok ++ ending ∧
      (let rest := (Pass.run program ((freshSlots pool).map .ok) separator source out err).rest
      (ending = [] ∧ rest = []) ∨ ∃ message, ending = .error message :: rest) := by
  obtain ⟨ending, hsource, hending⟩ := distribute_rest separator (freshSlots pool) 0 source
  refine ⟨ending, hsource, ?_⟩
  rw [Pass.run, startAll_ok]
  dsimp only
  rw [(conclude_slots _ _ _ _ _).2]
  rcases hending with ⟨hall, hrest⟩ | ⟨message, rest, herror, hrest⟩
  · exact .inl ⟨hall, congrArg Prod.snd hrest⟩
  · refine .inr ⟨message, ?_⟩
    rw [herror, congrArg Prod.snd hrest]

/-- Lines do not change the number of their slot. -/
theorem Slot.after_number (s : Slot) (separator : Bytes) (lines : List String) :
    (s.after separator lines).number = s.number := by
  rw [Slot.after, (Slot.finish_counts _).1, Slot.sendAll_number]

/-- A slot that has just been started counts each line that it is to send once, and what it takes
is the front of those lines. -/
theorem Slot.after_start (number : Nat) (worker : Worker) (pipe : Pipe) (separator : Bytes)
    (lines : List String) :
    let s := (Slot.start number worker pipe).after separator lines
    (Slot.start number worker pipe).taken separator lines = lines.take s.sent ∧
      s.sent + s.dropped = lines.length := by
  intro s
  have hfinish := Slot.finish_counts ((Slot.start number worker pipe).sendAll separator lines)
  obtain ⟨-, hsent, hdropped⟩ := hfinish
  obtain ⟨count, -, htaken, hcount, hothers⟩ :=
    Slot.sendAll_counts (Slot.start number worker pipe) separator lines
  have hnone : (Slot.start number worker pipe).sent = 0 ∧
      (Slot.start number worker pipe).dropped = 0 := ⟨rfl, rfl⟩
  have htotal : s.sent = count := by
    rw [hcount, hnone.1, Nat.zero_add] at hsent
    exact hsent
  refine ⟨htotal ▸ htaken, ?_⟩
  rw [hnone.2, Nat.zero_add, ← hdropped, Nat.add_comm, ← htotal] at hothers
  exact hothers

/-- The counts of all slots of a pass add up to the number of lines. -/
theorem sum_run_counts (program : String) (hpool : pool ≠ []) (separator : Bytes)
    (source : List SourceItem) (out err : Destination) :
    let pass := Pass.run program ((freshSlots pool).map .ok) separator source out err
    (pass.slots.map fun s => s.sent + s.dropped).sum = (linesBeforeError source).length := by
  intro pass
  have hcounts : ∀ k s, pass.slots[k]? = some s →
      s.sent + s.dropped = (dealt pool.length k 0 (linesBeforeError source)).length := by
    intro k s hs
    rw [getElem?_run_slots program hpool] at hs
    obtain ⟨worker, -, rfl⟩ := Option.map_eq_some_iff.mp hs
    exact (Slot.after_start (k + 1) worker.1 worker.2 separator _).2
  rw [sum_map_eq_sum_range hcounts, length_run_slots, sum_length_dealt]
  exact List.length_pos_of_ne_nil hpool

/-- The counts in a report of a pass are those of its slots. -/
theorem run_report {program : String} {starts : List (Except String Slot)} {separator : Bytes}
    {source : List SourceItem} {out err : Destination} {report : Report}
    (h : (Pass.run program starts separator source out err).result = .ok report) :
    report.slots.map (fun r => (r.slot, r.sent, r.dropped)) =
      (Pass.run program starts separator source out err).slots.map
        fun s => (s.number, s.sent, s.dropped) := by
  rw [Pass.run] at h ⊢
  generalize startAll starts = started at h ⊢
  obtain ⟨slots, failure⟩ := started
  cases failure with
  | some cause => exact nomatch h
  | none =>
    dsimp only at h ⊢
    rw [conclude_report h, (conclude_slots _ _ _ _ _).1, List.map_map, List.map_map, List.map_map]
    rfl

/-- A pass over any source, with any workers behind pipes that fail at any moment. The lines before
the first error of the source are dealt in turn. Each slot takes the front of its share and drops
the others, a slot that is dead takes no more lines, and no slot makes a difference to another one.
Every line counts once, and nothing after the error is looked at. -/
theorem pass_deals_in_turn (program : String) {pool : List (Worker × Pipe)} (hpool : pool ≠ [])
    (separator : Bytes) (source : List SourceItem) (out err : Destination) :
    let n := pool.length
    let lines := linesBeforeError source
    let pass := Pass.run program ((freshSlots pool).map .ok) separator source out err
    -- the slots and what each of them takes
    pass.slots.length = n ∧
    (∀ k worker pipe, pool[k]? = some (worker, pipe) →
      let fresh := Slot.start (k + 1) worker pipe
      let share := dealt n k 0 lines
      ∃ s, pass.slots[k]? = some s ∧ s = (fresh.sendAll separator share).finish.1 ∧
        s.number = k + 1 ∧ fresh.taken separator share = share.take s.sent ∧
        s.sent + s.dropped = share.length ∧
        ∀ earlier later, share = earlier ++ later →
          (fresh.sendAll separator earlier).isAlive = false →
          (fresh.sendAll separator share).isAlive = false ∧
            (fresh.sendAll separator earlier).taken separator later = []) ∧
    -- fairness
    (∀ k < n, ∀ k' < n, (dealt n k 0 lines).length ≤ (dealt n k' 0 lines).length + 1) ∧
    -- totals
    (pass.slots.map Slot.sent).sum + (pass.slots.map Slot.dropped).sum = lines.length ∧
    (∀ report, pass.result = .ok report →
      report.slots.map (fun r => (r.slot, r.sent, r.dropped)) =
          pass.slots.map (fun s => (s.number, s.sent, s.dropped)) ∧
        report.sent + report.dropped = lines.length) ∧
    -- independence
    (∀ pool' : List (Worker × Pipe), pool'.length = n → ∀ k : Nat, pool'[k]? = pool[k]? →
      (Pass.run program ((freshSlots pool').map .ok) separator source out err).slots[k]? =
        pass.slots[k]?) ∧
    -- the end of the handing out
    ∃ ending, source = lines.map Except.ok ++ ending ∧
      ((ending = [] ∧ pass.rest = []) ∨ ∃ message, ending = .error message :: pass.rest) := by
  intro n lines pass
  have hslot := getElem?_run_slots program hpool separator source out err
  have hsum : (pass.slots.map fun s => s.sent + s.dropped).sum = lines.length :=
    sum_run_counts program hpool separator source out err
  refine ⟨length_run_slots program separator source out err, ?_, ?_, ?_, ?_, ?_,
    run_rest program separator source out err⟩
  · intro k worker pipe hworker fresh share
    obtain ⟨htaken, htotal⟩ := Slot.after_start (k + 1) worker pipe separator share
    refine ⟨fresh.after separator share, ?_, rfl, Slot.after_number fresh separator share, htaken,
      htotal, ?_⟩
    · rw [hslot k, hworker]
      rfl
    · intro earlier later hshare hdead
      have hdies := Slot.sendAll_of_dead hdead separator later
      refine ⟨?_, hdies.2.1⟩
      rw [hshare, Slot.sendAll, List.foldl_append]
      exact hdies.1
  · intro k hk k' hk'
    exact length_dealt_le_succ hk hk' lines
  · rwa [List.sum_map_add] at hsum
  · intro report hreport
    have hcounts := run_report hreport
    refine ⟨hcounts, ?_⟩
    have hsums := congrArg (List.map fun c : Nat × Nat × Nat => c.2.1 + c.2.2) hcounts
    rw [List.map_map, List.map_map] at hsums
    rw [Report.sent_add_dropped, ← hsum]
    exact congrArg List.sum hsums
  · intro pool' hlength k hsame
    have hpool' : pool' ≠ [] := by
      rintro rfl
      exact hpool (List.length_eq_zero_iff.mp hlength.symm)
    rw [getElem?_run_slots program hpool', hslot k, hlength, hsame]

/-- A line that no buffer holds is lost at once if nothing can be written to the worker. -/
theorem Slot.send_long {line : Bytes} (hline : bufferCapacity ≤ line.length) (number : Nat)
    (worker : Worker) (separator : Bytes) :
    ∃ pipe, (Slot.start number worker ⟨.empty, some 0⟩).send line separator =
      (false, (Slot.start number worker pipe).drop) := by
  have hpos : 0 < line.length := Nat.lt_of_lt_of_le (by decide) hline
  have hlong : ¬ line.length < bufferCapacity := Nat.not_lt.mpr hline
  have hput : ∃ pipe, putBytes .empty ⟨.empty, some 0⟩ line = (none, pipe) := by
    by_cases hfull : bufferCapacity < line.length
    · simp [putBytes, Pipe.write, Pieces.empty, Pieces.bytes, hlong, hfull, Nat.ne_of_gt hpos]
    · simp [putBytes, Pipe.write, Pieces.empty, hlong, hfull, Nat.ne_of_gt hpos]
  obtain ⟨pipe, hput⟩ := hput
  refine ⟨pipe, ?_⟩
  rw [send]
  simp only [start, hput]

theorem length_encodeUtf8_replicate (n : Nat) :
    (Text.encodeUtf8 (String.ofList (List.replicate n 'x'))).length = n := by
  have hone : 'x'.utf8Size = 1 := by decide
  simp [Text.encodeUtf8, Text.encodeChars, List.length_flatMap, hone]

/-- A worker that reads nothing is dead after its first line, which makes no difference to the
other one. -/
theorem pass_deals_in_turn_past_dead :
    let pool := [(Worker.copy, (⟨.empty, some 0⟩ : Pipe)), (Worker.copy, ⟨.empty, none⟩)]
    ∃ long : String,
      let source := [.ok long, .ok "b", .ok "c", .error "e", .ok "d"]
      let pass := Pass.run "cat" ((freshSlots pool).map .ok) [10] source {} {}
      pool ≠ [] ∧ pass.rest = [.ok "d"] ∧
        (pass.slots.map Slot.sent).sum + (pass.slots.map Slot.dropped).sum = 3 ∧
        ∃ s, pass.slots[0]? = some s ∧ s.sent = 0 ∧ s.dropped = 2 := by
  intro pool
  obtain ⟨long, hlong⟩ : ∃ long : String, bufferCapacity ≤ (Text.encodeUtf8 long).length :=
    ⟨_, (length_encodeUtf8_replicate bufferCapacity).ge⟩
  refine ⟨long, ?_⟩
  intro source pass
  have hpool : pool ≠ [] := List.cons_ne_nil _ _
  obtain ⟨-, hslots, -, htotal, -, -, ending, hsource, hending⟩ :=
    pass_deals_in_turn "cat" hpool [10] source {} {}
  refine ⟨hpool, ?_, htotal, ?_⟩
  · have hitems : source = [long, "b", "c"].map Except.ok ++ [.error "e", .ok "d"] := rfl
    obtain rfl := List.append_cancel_left (hitems.symm.trans hsource)
    rcases hending with ⟨hnone, -⟩ | ⟨message, herror⟩
    · exact nomatch hnone
    · exact (List.cons.inj herror).2.symm
  · obtain ⟨s, hs, -, -, htaken, hcounts, -⟩ := hslots 0 _ _ rfl
    have hshare : dealt pool.length 0 0 (linesBeforeError source) = [long, "c"] := by
      simp [pool, source, linesBeforeError, dealt_cons]
    rw [hshare] at htaken hcounts
    obtain ⟨pipe, hsend⟩ := Slot.send_long hlong 1 Worker.copy [10]
    have hnothing : (Slot.start 1 Worker.copy ⟨.empty, some 0⟩).taken [10] [long, "c"] = [] := by
      have hdead : (Slot.start 1 Worker.copy pipe).drop.isAlive = false := rfl
      rw [Slot.taken, hsend]
      exact (Slot.sendAll_of_dead hdead [10] ["c"]).2.1
    have hsent : s.sent = 0 := by
      have hfront : [long, "c"].take s.sent = [] := htaken.symm.trans hnothing
      rcases List.take_eq_nil_iff.mp hfront with hzero | hnil
      · exact hzero
      · exact nomatch hnil
    have hboth : s.sent + s.dropped = 2 := hcounts
    exact ⟨s, hs, hsent, by omega⟩

end LineQuery.Pool
