import LineQuery.Proofs.Pool.Drains
import LineQuery.Proofs.Pool.Streams
import LineQuery.Proofs.Text.ByteLines
import Mathlib.Logic.Relation

/-! # Drains at the same time

The drains of a pool write to one destination, each a record at a time, in any order. Whatever the
order is, what has been written is made of whole records, those of one slot are the front of its
lines in their order, and each drain has counted them. So when workers copy their input, who reads
the records takes one line of each slot in turn and has the lines of the source again.
-/

namespace LineQuery.Pool

open LineQuery.Text (Bytes byteLines encodeUtf8 natText)

/-! ## Records that are read -/

/-- The texts of the lines of one slot. -/
def textsOf (slot : Nat) (lines : List OutputLine) : List Bytes :=
  (lines.filter fun line => line.slot = slot).map OutputLine.text

theorem textsOf_concat_self (line : OutputLine) (lines : List OutputLine) :
    textsOf line.slot (lines ++ [line]) = textsOf line.slot lines ++ [line.text] := by
  simp [textsOf]

theorem textsOf_concat_of_ne {slot : Nat} {line : OutputLine} (h : line.slot ≠ slot)
    (lines : List OutputLine) : textsOf slot (lines ++ [line]) = textsOf slot lines := by
  simp [textsOf, h]

/-- The records of some lines, one after another. -/
def records (lines : List OutputLine) : Bytes :=
  lines.flatMap OutputLine.record

/-- What a reader takes for the lines of a slot: what stands behind the first tab in the lines that
have the number of the slot before it. -/
def slotTexts (slot : Nat) (bytes : Bytes) : List Bytes :=
  ((byteLines bytes).filter fun line => line.takeWhile (· ≠ 9) = encodeUtf8 (natText slot)).map
    fun line => (line.dropWhile (· ≠ 9)).tail

/-- The first tab is the one behind the number. -/
theorem ne_tab_of_mem_number {slot : Nat} {b : UInt8} (h : b ∈ encodeUtf8 (natText slot)) :
    b ≠ 9 := by
  rintro rfl
  exact Text.not_mem_natText (c := '\t') rfl slot (Text.mem_of_mem_encodeUtf8 h (by decide) rfl)

theorem OutputLine.takeWhile_tagged (line : OutputLine) :
    line.tagged.takeWhile (· ≠ 9) = encodeUtf8 (natText line.slot) := by
  have hnumber : ∀ b ∈ encodeUtf8 (natText line.slot), decide (b ≠ 9) = true := by
    intro b hb
    exact decide_eq_true (ne_tab_of_mem_number hb)
  rw [tagged, List.takeWhile_append_of_pos hnumber, List.takeWhile_cons_of_neg (by simp),
    List.append_nil]

theorem OutputLine.dropWhile_tagged (line : OutputLine) :
    line.tagged.dropWhile (· ≠ 9) = 9 :: line.text := by
  have hnumber : ∀ b ∈ encodeUtf8 (natText line.slot), decide (b ≠ 9) = true := by
    intro b hb
    exact decide_eq_true (ne_tab_of_mem_number hb)
  rw [tagged, List.dropWhile_append_of_pos hnumber, List.dropWhile_cons_of_neg (by simp)]

/-- A text that can be told from the line end behind it. -/
def IsLineText (text : Bytes) : Prop :=
  10 ∉ text ∧ text.getLast? ≠ some 13

/-- The records of lines are read back as lines, as long as no text holds a line feed. -/
theorem byteLines_records {lines : List OutputLine} (h : ∀ line ∈ lines, IsLineText line.text) :
    byteLines (records lines) = lines.map OutputLine.tagged := by
  have hrecords : records lines = (lines.map OutputLine.tagged).flatMap (· ++ [10]) := by
    rw [records, List.flatMap_map]
    exact List.flatMap_congr fun line _ => line.record_eq
  rw [hrecords, byteLines]
  refine Text.splitLines_flatMap ?_ ?_
  · intro tagged htagged hmem
    obtain ⟨line, hline, rfl⟩ := List.mem_map.mp htagged
    rcases List.mem_append.mp hmem with hnumber | hrest
    · refine Text.not_mem_natText (c := '\n') rfl line.slot ?_
      exact Text.mem_of_mem_encodeUtf8 hnumber (by decide) rfl
    · rcases List.mem_cons.mp hrest with htab | htext
      · exact absurd htab (by decide)
      · exact (h line hline).1 htext
  · intro tagged htagged
    obtain ⟨line, hline, rfl⟩ := List.mem_map.mp htagged
    rw [OutputLine.tagged, List.getLast?_append_of_ne_nil _ (List.cons_ne_nil _ _)]
    cases htext : line.text with
    | nil => decide
    | cons b text =>
      rw [List.getLast?_cons_cons, ← htext]
      exact (h line hline).2

/-- A reader gets back the lines of each slot. -/
theorem slotTexts_records {lines : List OutputLine} (h : ∀ line ∈ lines, IsLineText line.text)
    (slot : Nat) : slotTexts slot (records lines) = textsOf slot lines := by
  have hnumber : ∀ line : OutputLine,
      (line.tagged.takeWhile (· ≠ 9) = encodeUtf8 (natText slot)) ↔ line.slot = slot := by
    intro line
    rw [line.takeWhile_tagged]
    constructor
    · intro hsame
      exact Text.natText_injective (Text.encodeUtf8_injective hsame)
    · intro hsame
      rw [hsame]
  rw [slotTexts, byteLines_records h, List.filter_map, List.map_map, textsOf]
  have hfilter : (lines.filter ((fun line : Bytes =>
      decide (line.takeWhile (· ≠ 9) = encodeUtf8 (natText slot))) ∘ OutputLine.tagged)) =
      lines.filter fun line => line.slot = slot := by
    refine List.filter_congr fun line _ => ?_
    exact decide_eq_decide.mpr (hnumber line)
  rw [hfilter]
  refine List.map_congr_left fun line _ => ?_
  rw [Function.comp_apply, line.dropWhile_tagged, List.tail_cons]

/-! ## Drains and their steps -/

/-- A drain on its way: the number of its slot, the lines that it has not passed on yet, and what
it has seen. -/
structure Drainer where
  slot : Nat
  pending : List Bytes
  stats : DrainStats

/-- Drains that write to one destination. -/
structure Draining where
  drainers : List Drainer
  out : Destination

namespace Draining

/-- The drains of workers that have ended, before the first line is passed on. -/
def start (ended : List (Slot × Response)) (out : Destination) : Draining :=
  ⟨ended.map fun e => ⟨e.1.number, byteLines e.2.stdout, ⟨0, none⟩⟩, out⟩

/-- Any drain that has a line left may pass it on. -/
inductive Step : Draining → Draining → Prop where
  | pass {drainers : List Drainer} {out : Destination} {k slot : Nat} {line : Bytes}
    {pending : List Bytes} {stats : DrainStats}
    (next : drainers[k]? = some ⟨slot, line :: pending, stats⟩) :
    Step ⟨drainers, out⟩ ⟨drainers.set k ⟨slot, pending, (drainLine slot (stats, out) line).1⟩,
      (drainLine slot (stats, out) line).2⟩

/-- The drains have passed on lines, in some order. -/
abbrev Runs : Draining → Draining → Prop :=
  Relation.ReflTransGen Step

/-- No drain has a line left. -/
def Done (st : Draining) : Prop :=
  ∀ t ∈ st.drainers, t.pending = []

/-- The numbered drains of some streams have so far written the records of some lines. -/
structure Merges (streams : List (List Bytes)) (st : Draining) (lines : List OutputLine) :
    Prop where
  unlimited : st.out.closesAfter = none
  written : st.out.written = lines.map OutputLine.record
  length_eq : st.drainers.length = streams.length
  slots : ∀ line ∈ lines, 0 < line.slot ∧ line.slot ≤ streams.length
  /-- What a drain has passed on and what it has left are together its stream. -/
  drainer : ∀ k stream, streams[k]? = some stream → ∃ pending,
    st.drainers[k]? = some ⟨k + 1, pending, ⟨(textsOf (k + 1) lines).length, none⟩⟩ ∧
      textsOf (k + 1) lines ++ pending = stream

variable {streams : List (List Bytes)} {st st' : Draining} {lines : List OutputLine}

/-- A destination that never closes takes every record. -/
theorem write_record {d : Destination} (hopen : d.closesAfter = none) (line : OutputLine) :
    d.write line.record = .ok { d with records := line.record :: d.records } := by
  have hrecord : line.record.isEmpty = false := by
    rw [line.record_eq]
    simp
  have hclosed : d.isClosed = false := by
    rw [Destination.isClosed, hopen]
  rw [Destination.write, hrecord, hclosed]
  rfl

/-- A step writes one more record. -/
theorem Merges.step (h : Merges streams st lines) (hstep : Step st st') :
    ∃ line, Merges streams st' (lines ++ [line]) := by
  cases hstep with
  | @pass drainers out k slot text pending stats hnext =>
    have hk : k < streams.length := by
      rw [← h.length_eq]
      exact (List.getElem?_eq_some_iff.mp hnext).1
    obtain ⟨left, hdrainer, hstream⟩ := h.drainer k _ (List.getElem?_eq_getElem hk)
    obtain ⟨rfl, rfl, rfl⟩ := Drainer.mk.inj (Option.some.inj (hnext.symm.trans hdrainer))
    -- the destination is open, so what the drain passes on is one whole record
    let line : OutputLine := ⟨k + 1, text⟩
    have hpass : drainLine (k + 1) (⟨(textsOf (k + 1) lines).length, none⟩, out) text =
        (⟨(textsOf (k + 1) lines).length + 1, none⟩,
          { out with records := line.record :: out.records }) := by
      rw [drainLine]
      simp only [write_record h.unlimited ⟨k + 1, text⟩]
      rfl
    refine ⟨line, ?_⟩
    rw [hpass]
    exact {
      unlimited := h.unlimited
      written := by
        have hbefore := h.written
        rw [Destination.written] at hbefore ⊢
        rw [List.reverse_cons, hbefore, List.map_append]
        rfl
      length_eq := by rw [List.length_set, h.length_eq]
      slots := by
        intro other hother
        rcases List.mem_append.mp hother with hbefore | hlast
        · exact h.slots other hbefore
        · obtain rfl := List.mem_singleton.mp hlast
          exact ⟨Nat.succ_pos k, hk⟩
      drainer := by
        intro j stream hj
        by_cases hsame : k = j
        · subst hsame
          have hself := textsOf_concat_self line lines
          refine ⟨pending, ?_, ?_⟩
          · rw [List.getElem?_set_self (h.length_eq ▸ hk), hself, List.length_append]
            rfl
          · have hwhole := Option.some.inj ((List.getElem?_eq_getElem hk).symm.trans hj)
            rw [hself, List.append_assoc, ← hwhole, ← hstream]
            rfl
        · -- the other drains do not notice
          have hother : textsOf (j + 1) (lines ++ [line]) = textsOf (j + 1) lines :=
            textsOf_concat_of_ne (fun heq => hsame (Nat.succ.inj heq)) lines
          obtain ⟨left, hdrainer, hstream⟩ := h.drainer j stream hj
          refine ⟨left, ?_, ?_⟩
          · rw [List.getElem?_set_ne hsame, hother, hdrainer]
          · rw [hother, hstream] }

/-- Whatever the drains do in between, more records follow those that were written. -/
theorem Merges.runs (h : Merges streams st lines) (hruns : Runs st st') :
    ∃ more, Merges streams st' (lines ++ more) := by
  induction hruns with
  | refl => exact ⟨[], by rwa [List.append_nil]⟩
  | tail hruns hstep ih =>
    obtain ⟨more, hmerges⟩ := ih
    obtain ⟨line, hmerges⟩ := hmerges.step hstep
    exact ⟨more ++ [line], by rwa [← List.append_assoc]⟩

/-- When no drain has a line left, the lines of a slot are those of its stream. -/
theorem Merges.textsOf_eq (h : Merges streams st lines) (hdone : st.Done) {k : Nat}
    {stream : List Bytes} (hk : streams[k]? = some stream) : textsOf (k + 1) lines = stream := by
  obtain ⟨pending, hdrainer, hstream⟩ := h.drainer k stream hk
  have hnone : pending = [] := hdone _ (List.mem_of_getElem? hdrainer)
  rw [← hstream, hnone, List.append_nil]

/-- Before the first step nothing has been written. -/
theorem merges_start {ended : List (Slot × Response)}
    (hnumbers : ∀ (k : Nat) (e : Slot × Response), ended[k]? = some e → e.1.number = k + 1) :
    Merges (ended.map fun e => byteLines e.2.stdout) (start ended .unlimited) [] where
  unlimited := rfl
  written := rfl
  length_eq := by rw [start, List.length_map, List.length_map]
  slots := by
    intro line hline
    exact nomatch hline
  drainer := by
    intro k stream hk
    rw [List.getElem?_map] at hk
    obtain ⟨e, he, rfl⟩ := Option.map_eq_some_iff.mp hk
    refine ⟨byteLines e.2.stdout, ?_, rfl⟩
    rw [start, List.getElem?_map, he, Option.map_some, hnumbers k e he]
    rfl

/-- A drain may pass on all its lines before the others go on. -/
theorem runs_drain (before after : List Drainer) (slot : Nat) (pending : List Bytes)
    (stats : DrainStats) (out : Destination) :
    let last := pending.foldl (drainLine slot) (stats, out)
    Runs ⟨before ++ ⟨slot, pending, stats⟩ :: after, out⟩
      ⟨before ++ ⟨slot, [], last.1⟩ :: after, last.2⟩ := by
  induction pending generalizing stats out with
  | nil => exact .refl
  | cons line pending ih =>
    have hnext : (before ++ ⟨slot, line :: pending, stats⟩ :: after)[before.length]? =
        some ⟨slot, line :: pending, stats⟩ := by
      rw [List.getElem?_append_right (Nat.le_refl _), Nat.sub_self, List.getElem?_cons_zero]
    have hstep : Step ⟨before ++ ⟨slot, line :: pending, stats⟩ :: after, out⟩ _ := Step.pass hnext
    rw [List.set_append_right _ _ (Nat.le_refl _), Nat.sub_self, List.set_cons_zero] at hstep
    exact .head hstep (ih _ _)

/-- Draining slot after slot, as a pass does, is one of the orders. -/
theorem runs_drainAll (before : List Drainer) (ended : List (Slot × Response)) (out : Destination)
    (hbefore : ∀ t ∈ before, t.pending = []) :
    ∃ drainers, Runs ⟨before ++ (start ended out).drainers, out⟩
        ⟨drainers, (drainAll (·.stdout) ended out).2⟩ ∧
      (∀ t ∈ drainers, t.pending = []) ∧
      drainers.map Drainer.stats =
        before.map Drainer.stats ++ (drainAll (·.stdout) ended out).1 := by
  induction ended generalizing before out with
  | nil =>
    refine ⟨before, ?_, hbefore, (List.append_nil _).symm⟩
    rw [start, List.map_nil, List.append_nil]
    exact .refl
  | cons e ended ih =>
    let last := drain e.1.number out e.2.stdout
    have hfirst := runs_drain before (start ended out).drainers e.1.number
      (byteLines e.2.stdout) ⟨0, none⟩ out
    obtain ⟨drainers, hruns, hdone, hstats⟩ := ih (before ++ [⟨e.1.number, [], last.1⟩]) last.2 (by
      intro t ht
      rcases List.mem_append.mp ht with hold | hnew
      · exact hbefore t hold
      · rw [List.mem_singleton.mp hnew])
    rw [List.append_assoc] at hruns
    refine ⟨drainers, hfirst.trans hruns, hdone, ?_⟩
    rw [hstats, List.map_append, List.append_assoc]
    rfl

/-- All lines can be passed on, and the pass does so. -/
theorem exists_done (ended : List (Slot × Response)) (out : Destination) :
    ∃ st, Runs (start ended out) st ∧ st.Done ∧ st.out = (drainAll (·.stdout) ended out).2 ∧
      st.drainers.map Drainer.stats = (drainAll (·.stdout) ended out).1 := by
  obtain ⟨drainers, hruns, hdone, hstats⟩ := runs_drainAll [] ended out nofun
  exact ⟨_, hruns, hdone, rfl, hstats⟩

end Draining

/-! ## Workers that copy -/

/-- The slots and responses of `n` workers that copy the lines of a source, each with a line feed
behind it. -/
def copied (n : Nat) (lines : List String) : List (Slot × Response) :=
  let source := lines.map Except.ok
  (distribute [10] (slotsOf (List.replicate n Worker.copy) [10] source) 0 source).1.map Slot.finish

theorem slotsFrom_eq_mapIdx (number : Nat) (workers : List (Worker × Bytes)) :
    slotsFrom number workers = workers.mapIdx fun k worker =>
      Slot.start (number + k) worker.1 (Pipe.before worker.1 worker.2) := by
  induction workers generalizing number with
  | nil => rfl
  | cons worker workers ih =>
    rw [slotsFrom, ih, List.mapIdx_cons]
    simp only [Nat.add_zero, Nat.add_assoc, Nat.add_comm 1]

theorem slotsOf_copy (n : Nat) (separator : Bytes) (source : List SourceItem) :
    slotsOf (List.replicate n Worker.copy) separator source =
      freshSlots (List.replicate n (Worker.copy, ⟨.empty, none⟩)) := by
  refine List.ext_getElem? fun k => ?_
  rw [slotsOf, slotsFrom_eq_mapIdx, List.getElem?_mapIdx, getElem?_freshSlots,
    List.length_replicate]
  by_cases hk : k < n
  · have hworker : ((List.replicate n Worker.copy).zip (offers n separator source))[k]? =
        some (Worker.copy, offered n k separator source) := by
      refine List.getElem?_zip_eq_some.mpr ⟨?_, ?_⟩
      · rw [List.getElem?_replicate_of_lt hk]
      · rw [offers, List.getElem?_map, List.getElem?_range hk, Option.map_some]
    rw [hworker, List.getElem?_replicate_of_lt hk, Nat.add_comm]
    rfl
  · have hnone : ((List.replicate n Worker.copy).zip (offers n separator source))[k]? = none := by
      rw [List.getElem?_eq_none_iff, List.length_zip, List.length_replicate]
      omega
    have hout : (List.replicate n (Worker.copy, (⟨.empty, none⟩ : Pipe)))[k]? = none := by
      rw [List.getElem?_eq_none_iff, List.length_replicate]
      omega
    rw [hnone, hout]
    rfl

theorem linesBeforeError_map_ok (lines : List String) :
    linesBeforeError (lines.map .ok) = lines := by
  induction lines with
  | nil => rfl
  | cons line lines ih => rw [List.map_cons, linesBeforeError, ih]

section Copied

variable {n : Nat} {lines : List String}

theorem length_copied (n : Nat) (lines : List String) : (copied n lines).length = n := by
  rw [copied, List.length_map, length_distribute, slotsOf_copy, length_freshSlots,
    List.length_replicate]

/-- Each worker copies the lines that are dealt to its slot, and all of them are sent. -/
theorem eq_of_getElem?_copied {k : Nat} {e : Slot × Response}
    (he : (copied n lines)[k]? = some e) :
    k < n ∧ e.1.number = k + 1 ∧ e.1.sent = (dealt n k 0 lines).length ∧ e.1.dropped = 0 ∧
      e.2.stdout = joinLines [10] (dealt n k 0 lines) := by
  have hk : k < n := by
    rw [← length_copied n lines]
    exact (List.getElem?_eq_some_iff.mp he).1
  have hworker : (List.replicate n (Worker.copy, (⟨.empty, none⟩ : Pipe)))[k]? = some _ :=
    List.getElem?_replicate_of_lt hk
  obtain ⟨s, hs, hnumber, hsent, hdropped⟩ :=
    getElem?_finish_distribute hworker [10] (lines.map .ok)
  rw [offered_eq_joinLines (List.length_replicate ▸ Nat.zero_lt_of_lt hk)] at hs
  rw [List.length_replicate, linesBeforeError_map_ok] at hs hsent
  rw [copied, slotsOf_copy] at he
  obtain rfl := Option.some.inj (hs.symm.trans he)
  exact ⟨hk, hnumber, hsent, hdropped, rfl⟩

/-- The lines of the workers' outputs are the lines that they were given. -/
theorem byteLines_copied (hnl : ∀ line ∈ lines, '\n' ∉ line.toList)
    (hcr : ∀ line ∈ lines, line.toList.getLast? ≠ some '\r') {k : Nat} (hk : k < n) :
    ((copied n lines).map fun e => byteLines e.2.stdout)[k]? =
      some ((dealt n k 0 lines).map encodeUtf8) := by
  have he := List.getElem?_eq_getElem (hk.trans_eq (length_copied n lines).symm)
  obtain ⟨-, -, -, -, hstdout⟩ := eq_of_getElem?_copied he
  rw [List.getElem?_map, he, Option.map_some, hstdout]
  refine congrArg some (Text.byteLines_flatMap ?_ ?_)
  · intro line hline
    exact hnl line (mem_of_mem_dealt hline)
  · intro line hline
    exact hcr line (mem_of_mem_dealt hline)

/-- The lines of all slots together are lines of the source. -/
theorem isLineText_of_textsOf (hnl : ∀ line ∈ lines, '\n' ∉ line.toList)
    (hcr : ∀ line ∈ lines, line.toList.getLast? ≠ some '\r') {merged : List OutputLine}
    (hslots : ∀ line ∈ merged, 0 < line.slot ∧ line.slot ≤ n)
    (htexts : ∀ k < n, textsOf (k + 1) merged = (dealt n k 0 lines).map encodeUtf8) :
    ∀ line ∈ merged, IsLineText line.text := by
  intro line hline
  obtain ⟨hpos, hle⟩ := hslots line hline
  have hslot : line.slot - 1 + 1 = line.slot := Nat.sub_add_cancel hpos
  have hmem : line.text ∈ textsOf (line.slot - 1 + 1) merged := by
    rw [hslot]
    exact List.mem_map_of_mem (List.mem_filter.mpr ⟨hline, decide_eq_true rfl⟩)
  rw [htexts _ (by omega)] at hmem
  obtain ⟨text, htext, hencoded⟩ := List.mem_map.mp hmem
  have hsource : text ∈ lines := mem_of_mem_dealt htext
  rw [← hencoded]
  exact ⟨Text.newline_not_mem_encodeUtf8 (hnl text hsource),
    Text.getLast?_encodeUtf8_ne_return (hcr text hsource)⟩

end Copied

/-- Workers that copy lose, double and reorder nothing, in whatever order the drains write. What
has been written in the end is made of whole records. Those of a slot carry the lines that were
dealt to it, in their order, and its drain counts as many lines as the slot sent. Who reads what
was written and takes one line of each slot in turn has the lines of the source. -/
theorem pool_keeps_lines {n : Nat} (hn : 0 < n) {lines : List String}
    (hnl : ∀ line ∈ lines, '\n' ∉ line.toList)
    (hcr : ∀ line ∈ lines, line.toList.getLast? ≠ some '\r') {st : Draining}
    (hruns : Draining.Runs (Draining.start (copied n lines) .unlimited) st) (hdone : st.Done) :
    (∃ merged : List OutputLine,
      st.out.written = merged.map OutputLine.record ∧ st.out.bytes = records merged ∧
      (∀ line ∈ merged, 0 < line.slot ∧ line.slot ≤ n) ∧
      ∀ k < n, textsOf (k + 1) merged = (dealt n k 0 lines).map encodeUtf8 ∧
        ∀ q : Nat, (textsOf (k + 1) merged)[q]? = lines[k + q * n]?.map encodeUtf8) ∧
    (∀ k < n, slotTexts (k + 1) st.out.bytes = (dealt n k 0 lines).map encodeUtf8) ∧
    inTurn ((List.range n).map fun k => slotTexts (k + 1) st.out.bytes) = lines.map encodeUtf8 ∧
    st.drainers.length = n ∧ (copied n lines).length = n ∧
    ∀ (k : Nat) (e : Slot × Response) (t : Drainer),
      (copied n lines)[k]? = some e → st.drainers[k]? = some t →
        e.1.dropped = 0 ∧ t.stats = ⟨e.1.sent, none⟩ ∧
          ∀ err, (e.1.report t.stats err).stdoutLines = (e.1.report t.stats err).sent := by
  have hnumbers : ∀ (k : Nat) (e : Slot × Response), (copied n lines)[k]? = some e →
      e.1.number = k + 1 := fun k e he => (eq_of_getElem?_copied he).2.1
  -- `merged` are the lines in the order in which the drains have passed them on
  obtain ⟨merged, hmerges⟩ := (Draining.merges_start hnumbers).runs hruns
  rw [List.nil_append] at hmerges
  have hlength : ((copied n lines).map fun e => byteLines e.2.stdout).length = n := by
    rw [List.length_map, length_copied]
  have hslots : ∀ line ∈ merged, 0 < line.slot ∧ line.slot ≤ n := by
    intro line hline
    rw [← hlength]
    exact hmerges.slots line hline
  have htexts : ∀ k < n, textsOf (k + 1) merged = (dealt n k 0 lines).map encodeUtf8 := by
    intro k hk
    exact hmerges.textsOf_eq hdone (byteLines_copied hnl hcr hk)
  have hbytes : st.out.bytes = records merged := by
    rw [Destination.bytes, hmerges.written, records, List.flatMap_def]
  have hread : ∀ k < n, slotTexts (k + 1) st.out.bytes = (dealt n k 0 lines).map encodeUtf8 := by
    intro k hk
    rw [hbytes, slotTexts_records (isLineText_of_textsOf hnl hcr hslots htexts), htexts k hk]
  refine ⟨⟨merged, hmerges.written, hbytes, hslots, ?_⟩, hread, ?_, ?_, length_copied n lines, ?_⟩
  · intro k hk
    refine ⟨htexts k hk, ?_⟩
    intro q
    rw [htexts k hk, List.getElem?_map, getElem?_dealt hk]
  · have hplaces : (List.range n).map (fun k => slotTexts (k + 1) st.out.bytes) =
        (List.range n).map fun k => dealt n k 0 (lines.map encodeUtf8) := by
      refine List.map_congr_left fun k hk => ?_
      rw [hread k (List.mem_range.mp hk), dealt_map]
    rw [hplaces, inTurn_dealt hn]
  · rw [hmerges.length_eq, hlength]
  · intro k e t he ht
    obtain ⟨hk, -, hsent, hdropped, -⟩ := eq_of_getElem?_copied he
    obtain ⟨pending, hdrainer, -⟩ := hmerges.drainer k _ (byteLines_copied hnl hcr hk)
    obtain rfl := Option.some.inj (ht.symm.trans hdrainer)
    have hstats : (textsOf (k + 1) merged).length = e.1.sent := by
      rw [htexts k hk, List.length_map, hsent]
    refine ⟨hdropped, ?_, ?_⟩
    · rw [hstats]
    · intro err
      exact hstats

/-- Lines that look like records, and an empty one, go through two workers. -/
theorem pool_keeps_lines_like_records :
    let lines := ["2\ta", "", "1\t\tb"]
    ∃ st, Draining.Runs (Draining.start (copied 2 lines) .unlimited) st ∧ st.Done ∧
      slotTexts 2 st.out.bytes = [encodeUtf8 ""] ∧
      inTurn [slotTexts 1 st.out.bytes, slotTexts 2 st.out.bytes] = lines.map encodeUtf8 := by
  intro lines
  obtain ⟨st, hruns, hdone, -, -⟩ := Draining.exists_done (copied 2 lines) .unlimited
  obtain ⟨-, hread, hturns, -⟩ :=
    pool_keeps_lines (by decide) (by decide) (by decide) hruns hdone
  exact ⟨st, hruns, hdone, hread 1 (by decide), hturns⟩

end LineQuery.Pool
