import LineQuery.CommandLine.Tasks
import LineQuery.Proofs.Pool.Delivery
import LineQuery.Proofs.Pool.Shutdown
import LineQuery.Proofs.Pool.Sinks
import LineQuery.Proofs.Scoping.Verdict
import LineQuery.Proofs.Text.Quoting

/-! # The separator of accepted settings

Settings are refused for a separator without characters, and that is looked at before the escapes
in it are read. Escapes that are not known stand for nothing. So a separator of such escapes alone
is accepted although nothing is written for it, and then lines are run together; every other
separator that is accepted keeps them apart.
-/

namespace LineQuery

/-! ## Texts that stand for nothing -/

namespace Text

/-- Escapes that are not known, and perhaps a backslash behind them. -/
def StandsForNothing (cs : List Char) : Prop :=
  ∃ unknown : List Char, (∀ c ∈ unknown, c ∉ ['t', 'n', 'r', '\'', '"', '\\']) ∧
    ∃ last ∈ [[], ['\\']], cs = unknown.flatMap (fun c => ['\\', c]) ++ last

theorem unescape?_eq_none_iff {c : Char} :
    unescape? c = none ↔ c ∉ ['t', 'n', 'r', '\'', '"', '\\'] := by
  unfold unescape?
  split <;> simp_all

theorem standsForNothing_escape {c : Char} {cs : List Char} : StandsForNothing ('\\' :: c :: cs) ↔
    c ∉ ['t', 'n', 'r', '\'', '"', '\\'] ∧ StandsForNothing cs := by
  constructor
  · rintro ⟨unknown, hunknown, last, hlast, heq⟩
    cases unknown with
    | nil =>
      -- A backslash at the end has no character behind it.
      rw [List.flatMap_nil, List.nil_append] at heq
      rw [← heq] at hlast
      simp at hlast
    | cons d unknown =>
      obtain ⟨hd, hothers⟩ := List.forall_mem_cons.mp hunknown
      rw [List.flatMap_cons, List.append_assoc] at heq
      obtain ⟨rfl, rfl⟩ := List.cons.inj (List.cons.inj heq).2
      exact ⟨hd, unknown, hothers, last, hlast, rfl⟩
  · rintro ⟨hc, unknown, hunknown, last, hlast, rfl⟩
    refine ⟨c :: unknown, List.forall_mem_cons.mpr ⟨hc, hunknown⟩, last, hlast, ?_⟩
    rw [List.flatMap_cons, List.append_assoc]
    rfl

/-- A text that stands for nothing starts with a backslash, if there is anything in it. -/
theorem StandsForNothing.head {c : Char} {cs : List Char} (h : StandsForNothing (c :: cs)) :
    c = '\\' := by
  obtain ⟨unknown, -, last, hlast, heq⟩ := h
  cases unknown with
  | nil =>
    rw [List.flatMap_nil, List.nil_append] at heq
    rw [← heq] at hlast
    simp only [List.mem_cons, List.not_mem_nil, or_false, List.cons.injEq, reduceCtorEq,
      false_or] at hlast
    exact hlast.1
  | cons d unknown => exact (List.cons.inj heq).1

theorem decodeEscapes_eq_nil_iff (cs : List Char) :
    decodeEscapes cs = [] ↔ StandsForNothing cs := by
  fun_induction decodeEscapes cs with
  | case1 => exact iff_of_true rfl ⟨[], nofun, [], by simp, rfl⟩
  | case2 c cs ih =>
    rw [List.append_eq_nil_iff, Option.toList_eq_nil_iff, ih, standsForNothing_escape,
      unescape?_eq_none_iff]
  | case3 cs hlast ih =>
    cases cs with
    | nil => exact iff_of_true rfl ⟨[], nofun, ['\\'], by simp, rfl⟩
    | cons c cs => exact absurd rfl (hlast c cs rfl)
  | case4 c cs hlast hc ih =>
    exact iff_of_false (List.cons_ne_nil _ _) fun h => hc h.head

end Text

open CommandLine (Output RunOptions Session)
open Pool
open Text (StandsForNothing encodeUtf8)

namespace Settings

theorem refusal?_of_separator {s : Settings} (h : s.output.separator = some "") :
    s.refusal? ≠ none := by
  unfold refusal?
  rw [if_pos h]
  split
  · exact nofun
  · split
    · exact nofun
    · split <;> exact nofun

/-- Settings that are accepted have no separator without characters. -/
theorem separator_ne_of_ofText {text : String} {s : Settings} (h : ofText text = .ok s) :
    s.output.separator ≠ some "" := by
  intro hempty
  unfold ofText at h
  split at h
  · exact nomatch h
  · split at h
    · exact nomatch h
    · rename_i hnone
      obtain rfl := Except.ok.inj h
      exact refusal?_of_separator hempty hnone

/-- What stands for a separator is empty exactly if a separator is set that stands for nothing. -/
theorem effective_eq_empty_iff {s : OutputSettings} :
    s.effective = "" ↔ ∃ raw, s.separator = some raw ∧ StandsForNothing raw.toList := by
  unfold OutputSettings.effective
  cases s.separator with
  | none => exact iff_of_false (by decide) fun ⟨_, h, _⟩ => nomatch h
  | some raw =>
    simp only [Option.some.injEq, exists_eq_left']
    rw [← Text.decodeEscapes_eq_nil_iff, Text.unescape, ← String.toList_inj, String.toList_ofList]
    rfl

end Settings

/-! ## What is written with a separator -/

/-- Output that is handed to no workers is written with the separator between its lines. -/
theorem CommandLine.Output.stdout_direct (o : Output) (separator : String) :
    (o.direct separator).stdout =
      (encodeUtf8 separator).intercalate (o.lines.map encodeUtf8) := by
  obtain ⟨written, left, hitems, hdestination, -, hstops⟩ :=
    LineSink.writeFrom_stops (encodeUtf8 separator) 0 .unlimited o.source
  have hwritten : written = o.lines := by
    generalize (LineSink.writeFrom (encodeUtf8 separator) 0 .unlimited o.source).rest = rest,
      (LineSink.writeFrom (encodeUtf8 separator) 0 .unlimited o.source).result = outcome at hstops
    unfold Output.source at hitems
    cases hstops with
    | ended =>
      cases herror : o.error with
      | none =>
        rw [herror] at hitems
        simp only [Option.map_none, Option.toList_none, List.append_nil] at hitems
        exact (List.map_injective_iff.mpr (fun _ _ => Except.ok.inj) hitems).symm
      | some e =>
        rw [herror, List.append_nil] at hitems
        exact absurd hitems.symm map_ok_ne_append_error
    | source e rest =>
      cases herror : o.error with
      | none =>
        rw [herror, Option.map_none, Option.toList_none, List.append_nil] at hitems
        exact absurd hitems map_ok_ne_append_error
      | some e' =>
        rw [herror] at hitems
        exact (eq_of_append_error hitems).1.symm
    | refused line rest hrecord hclosed =>
      -- Nothing ever closes the destination.
      exact absurd (fun n hn => nomatch hn) hclosed
  have hbytes : (o.direct separator).stdout = (LineSink.writeFrom (encodeUtf8 separator) 0
      .unlimited o.source).destination.bytes := by
    show (LineSink.write (encodeUtf8 separator) .unlimited o.source).destination.bytes = _
    rw [LineSink.write_eq]
    rfl
  rw [hbytes, hdestination, Destination.bytes_taking, LineSink.flatten_writesFrom_zero, hwritten]
  rfl

/-! ## Accepted settings -/

/-- For every document that is accepted as settings, and every run whose options name no separator:
the separator of the run has no bytes exactly if the settings have one of unknown escapes alone.
The run writes its lines with the separator between them, or each worker is given its lines with the
separator behind each, as far as its reader stays. So in all other cases there are bytes between
two lines. -/
theorem accepted_separator_parts_lines {text : String} {s : Settings}
    (h : Settings.ofText text = .ok s) {o : RunOptions} (ho : o.separator = none) :
    let separator := encodeUtf8 (o.separatorText s)
    (separator = [] ↔ ∃ raw, s.output.separator = some raw ∧ raw ≠ "" ∧
      StandsForNothing raw.toList) ∧
    (∀ (session : Session) (c : Compilation) (plan : Plan) (items : List InputItem),
      c.artifact.mainPlan = .ok plan → session.input o.input = .ok items →
      (session.stream o s none c).1.stdout =
        separator.intercalate (((plan.invoke o.args).run items).1.map encodeUtf8)) ∧
    ∀ (program : String) (readers : List (Worker × Option Nat)) (source : List SourceItem)
      (out err : Destination) (k : Nat) (worker : Worker) (room : Option Nat),
      readers[k]? = some (worker, room) →
      ∃ slot, (Pass.run program ((freshSlots (readersPool readers)).map .ok) separator source
          out err).slots[k]? = some slot ∧
        slot.pipe.taken.bytes = Pipe.front room
          (joinLines separator (dealt readers.length k 0 (linesBeforeError source))) := by
  intro separator
  have heffective : o.separatorText s = s.output.effective := by
    rw [RunOptions.separatorText, ho]
  refine ⟨?_, ?_, ?_⟩
  -- the bytes of a text are none only if the text is empty
  · have hempty : separator = [] ↔ s.output.effective = "" := by
      rw [← heffective]
      exact ⟨fun hnil => Text.encodeUtf8_injective (hnil.trans rfl), fun h => by
        rw [show separator = encodeUtf8 "" from congrArg encodeUtf8 h]
        rfl⟩
    rw [hempty, Settings.effective_eq_empty_iff]
    refine exists_congr fun raw => and_congr_right fun hraw => ?_
    refine (and_iff_right ?_).symm
    rintro rfl
    exact Settings.separator_ne_of_ofText h hraw
  · intro session c plan items hplan hinput
    unfold Session.stream
    rw [hplan]
    dsimp only
    rw [hinput]
    exact CommandLine.Output.stdout_direct _ _
  · intro program readers source out err k worker room hreader
    have hreaders : readersPool readers ≠ [] := by
      intro hnil
      rw [List.map_eq_nil_iff.mp hnil] at hreader
      exact nomatch hreader
    -- a slot has been sent the share of its place, each line with the separator behind it
    have hlength : (readersPool readers).length = readers.length := List.length_map _
    refine ⟨(Slot.start (k + 1) worker ⟨.empty, room⟩).after separator
      (dealt readers.length k 0 (linesBeforeError source)), ?_, ?_⟩
    · rw [getElem?_run_slots program hreaders, hlength, readersPool, List.getElem?_map, hreader]
      rfl
    · exact (Slot.after_delivers (k + 1) worker room separator _).1

/-- Behind an escape that stands for nothing, a tab is left to part the lines of a run and those of
a worker. -/
theorem accepted_separator_parts_lines_at_tab :
    let text := "[output]\nseparator = '\\q\\t'\n"
    let s : Settings := { output := { separator := some "\\q\\t" } }
    let o : RunOptions := {}
    let session : Session := ⟨⟨[]⟩, [], ⟨[]⟩, encodeUtf8 "a\nb\n"⟩
    let plan : Plan := ⟨2, [0], ⟨1, none⟩, [], .slot 1 ⟨1, 24⟩⟩
    let c : Compilation := ⟨⟨1, [], [⟨"query", ["lines", "args"], plan⟩]⟩, []⟩
    let pass := Pass.run "cat" ((freshSlots (readersPool [(Worker.copy, none)])).map .ok)
      (encodeUtf8 (o.separatorText s)) [.ok "a", .ok "b"] {} {}
    Settings.ofText text = .ok s ∧ o.separator = none ∧
      (¬ ∃ raw, s.output.separator = some raw ∧ raw ≠ "" ∧ StandsForNothing raw.toList) ∧
      c.artifact.mainPlan = .ok plan ∧
      (session.stream o s none c).1.stdout = encodeUtf8 "a\tb" ∧
      ∃ slot, pass.slots[0]? = some slot ∧ slot.pipe.taken.bytes = encodeUtf8 "a\tb\t" := by
  intro text s o session plan c pass
  have hs : (Settings.ofText text).toOption = some s := by decide +kernel
  have hseparator : encodeUtf8 (o.separatorText s) = [9] := by decide +kernel
  have hlines : ((plan.invoke o.args).run (Session.itemsOf session.stdin)).1 = ["a", "b"] := by
    decide +kernel
  obtain ⟨hempty, hruns, hworkers⟩ :=
    accepted_separator_parts_lines (eq_ok_of_toOption hs) (o := o) rfl
  refine ⟨eq_ok_of_toOption hs, rfl, ?_, rfl, ?_, ?_⟩
  · intro hnothing
    exact List.cons_ne_nil _ _ (hseparator.symm.trans (hempty.mpr hnothing))
  · rw [hruns session c plan _ rfl rfl, hlines, hseparator]
    decide +kernel
  · obtain ⟨slot, hslot, hbytes⟩ := hworkers "cat" [(Worker.copy, none)] [.ok "a", .ok "b"] {} {} 0
      Worker.copy none rfl
    refine ⟨slot, hslot, hbytes.trans ?_⟩
    rw [hseparator]
    decide +kernel

/-- A separator that is an unknown escape is accepted, and two lines are written as one. -/
theorem accepted_separator_joins_lines :
    let s : Settings := { output := { separator := some "\\q" } }
    Settings.ofText "[output]\nseparator = '\\q'\n" = .ok s ∧ s.output.effective = "" ∧
      (Output.direct ⟨["a", "b"], none, []⟩ s.output.effective).stdout = encodeUtf8 "ab" := by
  intro s
  have hs : (Settings.ofText "[output]\nseparator = '\\q'\n").toOption = some s := by
    decide +kernel
  exact ⟨eq_ok_of_toOption hs, by decide +kernel, by decide +kernel⟩

end LineQuery
