import LineQuery.Proofs.Grammar.Frame
import LineQuery.Proofs.Plans.NoTrap
import LineQuery.Proofs.Scoping.Verdict

/-! # Compiled programs can be run

Whatever the body of a program is, if the program compiles, the plan that is run is that of
the entry which frames the body, also if the body closes that entry and adds others of the
same name. All plans of the program are safe, and no run of them touches what is not there.
-/

namespace LineQuery

open LineQuery.Syntax (Word)

/-- The plan that is run is that of the first entry, if that has the name and the number of
parameters which a run expects. -/
theorem mainPlan_of_first {a : Artifact} {entry : PlanEntry} {later : List PlanEntry}
    (hformat : a.formatVersion = Artifact.currentFormat) (hentries : a.entries = entry :: later)
    (hname : entry.name = Program.entryName) (hparams : entry.params.length = entryParams)
    (hslots : entry.plan.params.length + 1 = entryParams) : a.mainPlan = .ok entry.plan := by
  have hfind : a.entry? Program.entryName = some entry := by
    rw [Artifact.entry?, hentries, List.find?_cons, hname, beq_self_eq_true]
  rw [Artifact.mainPlan, if_neg (not_not_intro hformat), hfind]
  exact if_pos ⟨hparams, hslots⟩

/-- A program of imports that are words compiles to plans that can be run: the plan of the
entry that frames its body is found, every plan is safe and has a slot for each name of its
entry but the stream, and a run of a plan, for any extra arguments and any input, never reads
or fills a slot that its rows do not have, reads no slot before it is filled, and makes no call
that lacks an argument. -/
theorem compiled_program_runs {imports texts : List String} {c : Compilation}
    (himports : ∀ name ∈ imports, Word name.toList)
    (hc : compile (.assembled imports texts) = .ok c) :
    (∃ e entry later,
      (Syntax.parse (Program.assembled imports texts).text).1.entries.head? = some e ∧
      (Program.assembled imports texts).Frames e ∧ c.artifact.entries = entry :: later ∧
      LowersEntry (Program.assembled imports texts).context e entry ∧
      c.artifact.mainPlan = .ok entry.plan) ∧
    ∀ entry ∈ c.artifact.entries, entry.plan.Safe ∧
      (∃ e ∈ (Syntax.parse (Program.assembled imports texts).text).1.entries,
        LowersEntry (Program.assembled imports texts).context e entry ∧
        entry.plan.targets.length + 1 = e.binders.length) ∧
      ∀ args input k, entry.plan.guardedAnswer args input k =
        .ok ((entry.plan.invoke args).answer (entry.plan.invoke args).start input k) := by
  have h := compiled_of_ok hc
  constructor
  · -- What a body adds stands behind the entry that frames it, so that one is the first.
    obtain ⟨hderives, -⟩ := Syntax.derives_of_parse h.read
    obtain ⟨e, later, hentries, hframes⟩ :=
      Program.frames_first_entry (Program.word_of_mem_imports himports) hderives
    have hlowers := h.lowers e (hentries ▸ List.mem_cons_self ..)
    have hcompiled := h.entries
    rw [hentries, List.map_cons] at hcompiled
    refine ⟨e, _, _, by rw [hentries, List.head?_cons], hframes, hcompiled, hlowers, ?_⟩
    refine mainPlan_of_first h.format hcompiled ?_ ?_ ?_
    · rw [hlowers.name, hframes.name]
    · rw [hlowers.params, hframes.params]
      rfl
    · rw [hlowers.slots, hframes.params]
      rfl
  · intro entry hentry
    rw [h.entries] at hentry
    obtain ⟨e, he, rfl⟩ := List.mem_map.mp hentry
    have hlowers := h.lowers e he
    have hparams := (h.admissible.entries e he).params
    refine ⟨hlowers.safe, ⟨e, he, hlowers, hlowers.length_targets hparams⟩, ?_⟩
    exact fun args input k => hlowers.safe.guardedAnswer args input k

/-- A body that closes its entry and adds another one of the same name compiles to two safe
plans, and the first is run. -/
theorem compiled_program_runs_of_injection : ∃ c,
    compile (.assembled ["tsv"]
      ["from l at i in lines select l + args[i] \x7d query(all) \x7b from x in all",
        "skip 1 let n = len(x) where n > 2 select x"]) = .ok c ∧
    c.artifact.entries.length = 2 ∧ (∀ entry ∈ c.artifact.entries, entry.plan.Safe) ∧
    ∃ entry later, c.artifact.entries = entry :: later ∧ c.artifact.mainPlan = .ok entry.plan := by
  have himports : ∀ name ∈ ["tsv"], Word name.toList :=
    List.forall_mem_singleton.mpr ⟨'t', ['s', 'v'], rfl, by decide, by decide⟩
  have hok : ((compile (.assembled ["tsv"]
      ["from l at i in lines select l + args[i] \x7d query(all) \x7b from x in all",
        "skip 1 let n = len(x) where n > 2 select x"])).toOption.map
      fun c => c.artifact.entries.length) = some 2 := by
    decide +kernel
  obtain ⟨c, hc, hlength⟩ := Option.map_eq_some_iff.mp hok
  obtain ⟨⟨e, entry, later, -, -, hentries, -, hplan⟩, hsafe⟩ :=
    compiled_program_runs himports (eq_ok_of_toOption hc)
  exact ⟨c, eq_ok_of_toOption hc, hlength, fun entry he => (hsafe entry he).1, entry, later,
    hentries, hplan⟩

end LineQuery
