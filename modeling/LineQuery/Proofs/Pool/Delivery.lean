import LineQuery.Proofs.Pool.Streams

/-! # What a report says of the lines

A report counts a line as sent when the buffer of its slot has taken it, which is before anything
is written to the worker. So of a slot with nothing dropped the worker may still lack lines: those
that waited in the buffer when the reader had gone. They are no more than a buffer holds, and
there are none if the reader stays for all lines of the slot.
-/

namespace LineQuery.Pool

open LineQuery.Text (Bytes)

/-- The slots of workers that have just been started, where the reader of each stays for so many
bytes, or to the end. -/
def readersPool (readers : List (Worker × Option Nat)) : List (Worker × Pipe) :=
  readers.map fun reader => (reader.1, ⟨.empty, reader.2⟩)

/-- The report of a slot has its counts. -/
theorem getElem?_report {program : String} {starts : List (Except String Slot)}
    {separator : Bytes} {source : List SourceItem} {out err : Destination} {report : Report}
    (h : (Pass.run program starts separator source out err).result = .ok report) {k : Nat}
    {s : Slot}
    (hs : (Pass.run program starts separator source out err).slots[k]? = some s) :
    ∃ r, report.slots[k]? = some r ∧ r.slot = s.number ∧ r.sent = s.sent ∧
      r.dropped = s.dropped := by
  have hcounts := congrArg (fun counts : List (Nat × Nat × Nat) => counts[k]?) (run_report h)
  simp only [List.getElem?_map] at hcounts
  rw [hs] at hcounts
  obtain ⟨r, hr, hcount⟩ := Option.map_eq_some_iff.mp hcounts
  simp only [Prod.mk.injEq] at hcount
  exact ⟨r, hr, hcount⟩

/-- A slot that is not degraded has dropped nothing. -/
theorem SlotReport.dropped_of_not_degraded {r : SlotReport} (h : r.isDegraded = false) :
    r.dropped = 0 := by
  rw [isDegraded, Bool.or_eq_false_iff] at h
  exact Nat.eq_zero_of_not_pos (of_decide_eq_false h.1)

/-- Of each slot in a report, the pipe of the worker has been given the front of the slot's lines,
as many bytes as the reader stayed for. The lines that count as sent exceed that by a buffer at
most, and all of them were written in full exactly if the reader stayed for them. In particular a
slot that is not degraded has sent all its lines, and its worker was given all of them exactly if
the reader stayed for them; then nothing is dropped. -/
theorem report_exceeds_pipe_by_a_buffer (program : String) {readers : List (Worker × Option Nat)}
    (hreaders : readers ≠ []) (separator : Bytes) (source : List SourceItem)
    (out err : Destination) {report : Report}
    (hreport : (Pass.run program ((freshSlots (readersPool readers)).map .ok) separator source
      out err).result = .ok report) :
    let pass := Pass.run program ((freshSlots (readersPool readers)).map .ok) separator source
      out err
    report.slots.length = readers.length ∧
    ∀ k worker room, readers[k]? = some (worker, room) →
      let share := dealt readers.length k 0 (linesBeforeError source)
      let given := joinLines separator share
      ∃ s r, pass.slots[k]? = some s ∧ report.slots[k]? = some r ∧ r.slot = k + 1 ∧
        let written := s.pipe.taken.bytes
        let sent := joinLines separator (share.take r.sent)
        written = Pipe.front room given ∧
        r.sent + r.dropped = share.length ∧
        sent.length ≤ written.length + bufferCapacity ∧
        (sent <+: written ↔ Pipe.HasRoom room sent) ∧
        (r.isDegraded = false → r.sent = share.length ∧
          (written = given ↔ Pipe.HasRoom room given)) ∧
        (Pipe.HasRoom room given → r.dropped = 0 ∧ written = given) := by
  intro pass
  have hpool : readersPool readers ≠ [] := by
    intro hnil
    exact hreaders (List.map_eq_nil_iff.mp hnil)
  have hlength : (readersPool readers).length = readers.length := List.length_map _
  refine ⟨?_, ?_⟩
  · have hcounts := congrArg List.length (run_report hreport)
    rw [List.length_map, List.length_map, length_run_slots, hlength] at hcounts
    exact hcounts
  · intro k worker room hreader share given
    -- the slot at place `k` is a fresh one that its share was sent to
    let s := (Slot.start (k + 1) worker ⟨.empty, room⟩).after separator share
    have hs : pass.slots[k]? = some s := by
      show (Pass.run _ _ _ _ _ _).slots[k]? = some s
      rw [getElem?_run_slots program hpool, hlength, readersPool, List.getElem?_map, hreader]
      rfl
    obtain ⟨r, hr, hslot, hsent, hdropped⟩ := getElem?_report hreport hs
    obtain ⟨hwritten, hbuffer, hnone⟩ :=
      Slot.after_delivers (k + 1) worker room separator share
    obtain ⟨-, hcounts⟩ := Slot.after_start (k + 1) worker ⟨.empty, room⟩ separator share
    have htotal : r.sent + r.dropped = share.length := by
      rw [hsent, hdropped]
      exact hcounts
    refine ⟨s, r, hs, hr, ?_, ?_⟩
    · rw [hslot]
      exact Slot.after_number _ separator share
    · intro written sent
      -- the lines that count as sent are the first of the share
      have hfront : sent <+: given := by
        show joinLines separator (share.take r.sent) <+: joinLines separator share
        conv_rhs => rw [← List.take_append_drop r.sent share, joinLines_append]
        exact List.prefix_append _ _
      refine ⟨hwritten, htotal, ?_, ?_, ?_, ?_⟩
      · show (joinLines separator (share.take r.sent)).length ≤ _
        rw [hsent]
        exact hbuffer
      · exact (congrArg (sent <+: ·) hwritten).to_iff.trans (Pipe.prefix_front_iff hfront)
      · intro hsound
        have hzero : r.dropped = 0 := SlotReport.dropped_of_not_degraded hsound
        refine ⟨by omega, ?_⟩
        exact (congrArg (· = given) hwritten).to_iff.trans Pipe.front_eq_iff
      · intro hroom
        refine ⟨hdropped.trans (hnone hroom), ?_⟩
        exact hwritten.trans (Pipe.front_of_hasRoom hroom)

/-- A worker is given nothing of its line if its reader has gone before. The slot has sent the
line, and is not degraded. -/
theorem report_exceeds_pipe_by_a_line :
    let readers : List (Worker × Option Nat) := [(fun _ => ⟨some 0, [], [], some 0⟩, some 0)]
    let pass := Pass.run "head" ((freshSlots (readersPool readers)).map .ok) [10] [.ok "b"] {} {}
    let report : Report := ⟨[⟨1, 1, 0, 0, 0, some 0⟩]⟩
    readers ≠ [] ∧ pass.result = .ok report ∧
      ∃ s, pass.slots[0]? = some s ∧ s.pipe.taken.bytes = [] ∧
        ¬ joinLines [10] ["b"] <+: s.pipe.taken.bytes := by
  intro readers pass report
  have hreaders : readers ≠ [] := List.cons_ne_nil _ _
  have hreport : pass.result = .ok report := by decide +kernel
  obtain ⟨-, hslots⟩ :=
    report_exceeds_pipe_by_a_buffer "head" hreaders [10] [.ok "b"] {} {} hreport
  obtain ⟨s, r, hs, -, -, hwritten, -⟩ := hslots 0 _ _ rfl
  have hnothing : s.pipe.taken.bytes = [] := hwritten
  refine ⟨hreaders, hreport, s, hs, hnothing, ?_⟩
  rw [hnothing]
  intro hfront
  exact nomatch List.prefix_nil.mp hfront

/-- A worker that reads nothing and exits with zero. -/
def Worker.deaf : Worker := fun _ => ⟨some 0, [], [], some 0⟩

/-- A line that fills a pipe is written to it at once, and the separator after it waits. -/
theorem Slot.send_filling {line : Bytes} (hline : bufferCapacity < line.length) (number : Nat)
    (worker : Worker) :
    (Slot.start number worker ⟨.empty, some line.length⟩).send line [10] =
      (true, (Slot.start number worker ⟨.empty, some line.length⟩).fed (.push .empty [10])
        ⟨.push (.push .empty []) line, some line.length⟩) := by
  have hlong : ¬ line.length < bufferCapacity := Nat.not_lt.mpr (Nat.le_of_lt hline)
  have hput : putBytes .empty ⟨.empty, some line.length⟩ line =
      (some .empty, ⟨.push (.push .empty []) line, some line.length⟩) := by
    simp [putBytes, Pipe.write, Pieces.empty, Pieces.bytes, Pieces.push, hlong, hline]
  simp only [send, start, hput]
  rfl

/-- A slot can be sound in the report although its worker was given none of its lines in full. The
first line fills the pipe of a worker that does not read, so its separator and the second line wait
in the buffer; they are lost when the input is closed, which nobody counts. -/
theorem undegraded_slot_loses_lines :
    ∃ long : String,
      let source : List SourceItem := [.ok long, .ok "b"]
      let slots := slotsOf [.deaf] [10] source
      let pass := Pass.run "sleep" (slots.map .ok) [10] source {} {}
      ∃ s r, pass.slots = [s] ∧ pass.result = .ok ⟨[r]⟩ ∧
        r.isDegraded = false ∧ r.sent = 2 ∧ r.dropped = 0 ∧ r.exitCode = some 0 ∧
        ¬ joinLines [10] [long] <+: s.pipe.taken.bytes := by
  obtain ⟨long, hlong⟩ : ∃ long : String, (Text.encodeUtf8 long).length = pipeCapacity :=
    ⟨_, length_encodeUtf8_replicate pipeCapacity⟩
  refine ⟨long, ?_⟩
  intro source slots pass
  let fresh := Slot.start 1 .deaf ⟨.empty, some pipeCapacity⟩
  let filled := fresh.fed (.push .empty [10])
    ⟨.push (.push .empty []) (Text.encodeUtf8 long), some pipeCapacity⟩
  have hfilled : fresh.send (Text.encodeUtf8 long) [10] = (true, filled) := by
    have hbuffer : bufferCapacity < (Text.encodeUtf8 long).length := by
      rw [hlong]
      decide
    have hsend := Slot.send_filling hbuffer 1 .deaf
    rw [hlong] at hsend
    exact hsend
  have hsent : fresh.sendAll [10] [long, "b"] = (filled.send (Text.encodeUtf8 "b") [10]).2 := by
    rw [Slot.sendAll_cons, hfilled]
    rfl
  have hpass : pass = conclude [(fresh.sendAll [10] [long, "b"]).finish] none [] {} {} := by
    show Pass.run _ (slots.map .ok) _ _ _ _ = _
    rw [Pass.run, startAll_ok]
    rfl
  rw [hpass]
  refine ⟨fresh.after [10] [long, "b"], ⟨1, 2, 0, 0, 0, some 0⟩, (conclude_slots _ _ _ _ _).1, ?_,
    rfl, rfl, rfl, rfl, ?_⟩
  · rw [hsent]
    rfl
  · have hbytes : (fresh.after [10] [long, "b"]).pipe.taken.bytes =
        Pipe.front (some pipeCapacity) (joinLines [10] ([long] ++ ["b"])) :=
      (Slot.after_delivers 1 .deaf (some pipeCapacity) [10] [long, "b"]).1
    have hfront : joinLines [10] [long] <+: joinLines [10] ([long] ++ ["b"]) := by
      rw [joinLines_append]
      exact List.prefix_append _ _
    rw [hbytes, Pipe.prefix_front_iff hfront]
    intro hroom
    have hlimit := hroom pipeCapacity rfl
    -- the pipe is full before the separator
    have hlength : (joinLines [10] [long]).length = pipeCapacity + 1 := by
      rw [joinLines, List.flatMap_singleton, List.length_append, hlong, List.length_singleton]
    omega

end LineQuery.Pool
