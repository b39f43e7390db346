import LineQuery.Proofs.Runs.Pipeline
import Mathlib.Order.Bounds.Defs

/-! # Reading on demand

A run reads an item of the input only if it can give nothing without it. An answer that brings
an item therefore depends on the items read so far and on nothing behind them: put before any
other rest, they lead to the same answer. From this it follows that the number of items read
is the least one that leads to as many answers. A `take` that has had its last row, and an
error, are the end of all reading.

Main statement: `reads_on_demand`.
-/

namespace LineQuery

/-! ## What an answer depends on -/

namespace Invocation

variable {q : Invocation} {run : Run} {input : List InputItem}

/-- A run counts the items that it reads. -/
theorem pulled_feed (q : Invocation) (run : Run) (item : InputItem) :
    (q.feed run item).pulled = run.pulled + 1 := by
  cases item <;> rfl

/-- An answer with an item comes of the items that were read for it, whatever stands behind
them. -/
theorem exists_read_next (q : Invocation) : ∀ (input : List InputItem) (run : Run),
    (q.next run input).item.isSome → ∃ read, input = read ++ (q.next run input).rest ∧
      (q.next run input).run.pulled = run.pulled + read.length ∧
      ∀ more, q.next run (read ++ more) = { q.next run input with rest := more }
  | input, ⟨line :: lines, counters, progress, pulled, warnings⟩, _ => by
    refine ⟨[], ?_, ?_, fun more => ?_⟩ <;> simp [next.eq_def]
  | input, ⟨[], counters, .failed e, pulled, warnings⟩, _ => by
    refine ⟨[], ?_, ?_, fun more => ?_⟩ <;> simp [next.eq_def]
  | input, ⟨[], counters, .closed, pulled, warnings⟩, h => by
    rw [next.eq_def] at h
    cases h
  | [], ⟨[], counters, .flowing, pulled, warnings⟩, h => by
    rw [next.eq_def] at h
    cases h
  | item :: input, ⟨[], counters, .flowing, pulled, warnings⟩, h => by
    rw [next] at h ⊢
    obtain ⟨read, hinput, hpulled, hmore⟩ := exists_read_next q input _ h
    refine ⟨item :: read, congrArg (List.cons item) hinput, ?_, fun more => ?_⟩
    · calc _ = pulled + 1 + read.length := by rw [hpulled, pulled_feed]
        _ = pulled + (item :: read).length := by rw [List.length_cons]; omega
    · rw [List.cons_append, next]
      exact hmore more

/-- Once an answer has brought nothing, no later one brings anything. -/
theorem isSome_item_of_le {j k : Nat} (hle : j ≤ k)
    (h : (q.answer run input k).item.isSome) : (q.answer run input j).item.isSome := by
  rw [item_answer] at h ⊢
  have hk := (List.getElem?_eq_some_iff.mp (Option.some_get h).symm).1
  rw [List.getElem?_eq_getElem (Nat.lt_of_le_of_lt hle hk)]
  rfl

/-- The answers up to one with an item come of the items that were read for them, whatever
stands behind them. -/
theorem exists_read_answer (q : Invocation) : ∀ (k : Nat) (run : Run) (input : List InputItem),
    (q.answer run input k).item.isSome → ∃ read, input = read ++ (q.answer run input k).rest ∧
      (q.answer run input k).run.pulled = run.pulled + read.length ∧
      ∀ more, q.answer run (read ++ more) k = { q.answer run input k with rest := more }
  | 0, run, input, h => exists_read_next q input run h
  | k + 1, run, input, h => by
    have hfirst : (q.next run input).item.isSome := isSome_item_of_le (Nat.zero_le _) h
    obtain ⟨read, hinput, hpulled, hmore⟩ := exists_read_next q input run hfirst
    obtain ⟨read', hinput', hpulled', hmore'⟩ := exists_read_answer q k _ _ h
    refine ⟨read ++ read', ?_, ?_, fun more => ?_⟩
    · rw [answer, List.append_assoc, ← hinput', ← hinput]
    · rw [answer, hpulled', hpulled, List.length_append]
      omega
    · rw [answer, List.append_assoc, hmore]
      exact hmore' more

end Invocation

/-! ## Runs that are over -/

/-- A run that has nothing to give and wants nothing. -/
structure Run.Over (run : Run) : Prop where
  waiting : run.waiting = []
  closed : run.progress = .closed

namespace Invocation

variable {q : Invocation} {run : Run}

/-- An answer that is no line is the end of a run. -/
theorem over_next (q : Invocation) : ∀ (input : List InputItem) (run : Run),
    (∀ line, (q.next run input).item ≠ some (.ok line)) → (q.next run input).run.Over
  | input, ⟨line :: lines, counters, progress, pulled, warnings⟩, h => by
    rw [next.eq_def] at h
    exact absurd rfl (h line)
  | input, ⟨[], counters, .failed e, pulled, warnings⟩, _ => by
    rw [next.eq_def]
    exact ⟨rfl, rfl⟩
  | input, ⟨[], counters, .closed, pulled, warnings⟩, _ => by
    rw [next.eq_def]
    exact ⟨rfl, rfl⟩
  | [], ⟨[], counters, .flowing, pulled, warnings⟩, _ => ⟨rfl, rfl⟩
  | item :: input, ⟨[], counters, .flowing, pulled, warnings⟩, h => by
    rw [next] at h ⊢
    exact over_next q input _ h

/-- A run that is over stays as it is. -/
theorem answer_of_over (h : run.Over) : ∀ (k : Nat) (input : List InputItem),
    (q.answer run input k).run = run := by
  have hnext : ∀ input, q.next run input = ⟨none, run, input⟩ := by
    intro input
    rw [next.eq_def, h.waiting, h.closed]
  intro k
  induction k with
  | zero =>
    intro input
    rw [answer, hnext]
  | succ k ih =>
    intro input
    rw [answer, hnext]
    exact ih input

/-- After an error nothing is read. -/
theorem pulled_of_error {e : RunError} : ∀ (k : Nat) (run : Run) (input : List InputItem),
    (q.answer run input k).item = some (.error e) → ∀ j, k ≤ j →
      (q.answer run input j).run.pulled = (q.answer run input k).run.pulled
  | 0, run, input, _, 0, _ => rfl
  | 0, run, input, h, j + 1, _ => by
    have hover : (q.next run input).run.Over := by
      refine over_next q input run fun line hline => ?_
      rw [answer, hline] at h
      cases h
    exact congrArg Run.pulled (answer_of_over hover j _)
  | k + 1, run, input, h, j + 1, hle =>
    pulled_of_error k _ _ h j (Nat.le_of_succ_le_succ hle)

end Invocation

/-! ## Runs that want more -/

namespace Invocation

variable {q : Invocation}

/-- A run that reads past `p` items still has to bring, after these, all that comes of the items
behind them, whatever these are. -/
def Open (q : Invocation) (run : Run) (input : List InputItem) (p : Nat) : Prop :=
  ∃ done counters, ∀ more,
    (q.trail run (input.take (p - run.pulled) ++ more)).toList =
      done ++ (pipe q.plan.select q.plan.steps counters (q.inputRows p more)).toList

/-- A line is pulled only while the query is open. -/
theorem open_next (q : Invocation) {p : Nat} : ∀ (input : List InputItem) (run : Run),
    run.pulled ≤ p → p < (q.next run input).run.pulled → q.Open run input p
  | input, ⟨line :: lines, counters, progress, pulled, warnings⟩, hle, hlt => by
    rw [next.eq_def] at hlt
    exact absurd hlt (Nat.not_lt.mpr hle)
  | input, ⟨[], counters, .failed e, pulled, warnings⟩, hle, hlt => by
    rw [next.eq_def] at hlt
    exact absurd hlt (Nat.not_lt.mpr hle)
  | input, ⟨[], counters, .closed, pulled, warnings⟩, hle, hlt => by
    rw [next.eq_def] at hlt
    exact absurd hlt (Nat.not_lt.mpr hle)
  | [], ⟨[], counters, .flowing, pulled, warnings⟩, hle, hlt => absurd hlt (Nat.not_lt.mpr hle)
  | item :: input, ⟨[], counters, .flowing, pulled, warnings⟩, hle, hlt => by
    rcases Nat.eq_or_lt_of_le hle with rfl | hpulled
    · -- The run wants the next item now.
      refine ⟨[], counters, fun more => ?_⟩
      rw [Nat.sub_self]
      rfl
    · rw [next] at hlt
      have hle : (q.feed ⟨[], counters, .flowing, pulled, warnings⟩ item).pulled ≤ p := by
        rw [pulled_feed]
        exact hpulled
      obtain ⟨done, counters', hmore⟩ := open_next q input _ hle hlt
      refine ⟨done, counters', fun more => ?_⟩
      have hsub : p - pulled = p - (pulled + 1) + 1 := by
        change pulled < p at hpulled
        omega
      rw [← hmore, pulled_feed, trail_feed q rfl rfl]
      change (q.trail _ ((item :: input).take (p - pulled) ++ more)).toList = _
      rw [hsub]
      rfl

/-- An answer behind which more is read has brought an item. -/
theorem isSome_item_of_pulled_lt {run : Run} {input : List InputItem} {k : Nat}
    (hlt : (q.next run input).run.pulled < (q.answer run input (k + 1)).run.pulled) :
    (q.next run input).item.isSome := by
  refine Option.isSome_iff_ne_none.mpr fun hnone => ?_
  have hover : (q.next run input).run.Over := by
    refine over_next q input run fun line hline => ?_
    rw [hnone] at hline
    cases hline
  rw [answer, answer_of_over hover] at hlt
  exact Nat.lt_irrefl _ hlt

theorem open_answer (q : Invocation) {p : Nat} : ∀ (k : Nat) (run : Run)
    (input : List InputItem), run.pulled ≤ p → p < (q.answer run input k).run.pulled →
      q.Open run input p
  | 0, run, input, hle, hlt => open_next q input run hle hlt
  | k + 1, run, input, hle, hlt => by
    by_cases hfirst : p < (q.next run input).run.pulled
    · exact open_next q input run hle hfirst
    · have hsome : (q.next run input).item.isSome :=
        isSome_item_of_pulled_lt (Nat.lt_of_le_of_lt (Nat.not_lt.mp hfirst) hlt)
      obtain ⟨x, hx⟩ := Option.isSome_iff_exists.mp hsome
      obtain ⟨read, hinput, hpulled, hnext⟩ := exists_read_next q input run hsome
      obtain ⟨done, counters, hmore⟩ := open_answer q k _ _ (Nat.not_lt.mp hfirst) hlt
      refine ⟨x :: done, counters, fun more => ?_⟩
      -- What is read for the first answer stands before what is read for the others.
      have htake : input.take (p - run.pulled) = read ++
          (q.next run input).rest.take (p - (q.next run input).run.pulled) := by
        have hlength : p - run.pulled = read.length + (p - (q.next run input).run.pulled) := by
          omega
        calc input.take (p - run.pulled)
          _ = (read ++ (q.next run input).rest).take
                (read.length + (p - (q.next run input).run.pulled)) := by
            rw [← hinput, ← hlength]
          _ = _ := List.take_length_add_append _
      have hstep := q.toList_trail_next
        (read ++ ((q.next run input).rest.take (p - (q.next run input).run.pulled) ++ more)) run
      rw [hnext] at hstep
      rw [htake, List.append_assoc, List.cons_append, ← hmore]
      obtain ⟨hhead, htail⟩ := hstep
      rw [hx] at hhead
      obtain ⟨later, hlater⟩ := List.head?_eq_some_iff.mp hhead.symm
      rw [htail, hlater, List.tail_cons]

end Invocation

/-! ## Rows that reach a clause -/

/-- The rows behind some steps that have not met a row before. -/
def rowsBehind (steps : List Step) (t : Trail RunError Row) : Trail RunError Row :=
  steps.foldl (fun t step => step.rows none t) t

/-- More rows in front of a step lead to more rows behind it. -/
theorem Step.exists_rows_append (step : Step) (s t : Trail RunError Row) :
    ∃ u, step.rows none (s ++ t) = step.rows none s ++ u := by
  cases step with
  | range var index source => exact ⟨_, Trail.bind_append _ s t⟩
  | filter cond => exact ⟨_, Trail.bind_append _ s t⟩
  | bind slot value => exact ⟨_, Trail.bind_append _ s t⟩
  | skip count => exact Trail.exists_counted_append Trail.exists_drop_append _ s t
  | take count => exact Trail.exists_counted_append Trail.exists_take_append _ s t

/-- More input adds rows behind those that were there. -/
theorem exists_rowsBehind_append : ∀ (steps : List Step) (s t : Trail RunError Row),
    ∃ u, rowsBehind steps (s ++ t) = rowsBehind steps s ++ u
  | [], _, t => ⟨t, rfl⟩
  | step :: steps, s, t => by
    obtain ⟨u, hu⟩ := step.exists_rows_append s t
    obtain ⟨v, hv⟩ := exists_rowsBehind_append steps (step.rows none s) u
    exact ⟨v, (congrArg (rowsBehind steps) hu).trans hv⟩

/-- The clauses of a pipeline can be cut at any place. -/
theorem pipe_append (select : Node) (later : List Step) : ∀ (steps : List Step)
    (t : Trail RunError Row),
    pipe select (steps ++ later) ((steps ++ later).map fun _ => none) t =
      pipe select later (later.map fun _ => none) (rowsBehind steps t)
  | [], _ => rfl
  | step :: steps, t => pipe_append select later steps (step.rows none t)

/-- A `take` that has had its last row makes nothing of what comes behind. -/
theorem rows_take_append {count : Node} {row : Row} {n : Nat} {s : Trail RunError Row}
    (hfirst : s.values.head? = some row) (hcount : countOf .take none count row = .ok n)
    (hlast : n ≤ s.values.length) (t : Trail RunError Row) :
    (Step.take count).rows none (s ++ t) = (Step.take count).rows none s := by
  cases s with
  | done => exact nomatch hfirst
  | fail e => exact nomatch hfirst
  | cons first s =>
    obtain rfl : first = row := Option.some.inj hfirst
    have happend := Trail.take_append t hlast
    simp only [Step.rows, Trail.cons_append, Trail.counted, hcount] at happend ⊢
    exact happend

namespace Invocation

theorem inputRows_append (q : Invocation) : ∀ (input more : List InputItem) (i : Nat),
    q.inputRows i (input ++ more) =
      q.inputRows i input ++ q.inputRows (i + input.length) more
  | [], _, _ => rfl
  | .error _ :: _, _, _ => rfl
  | .ok line :: input, more, i => by
    have hlength : i + 1 + input.length = i + (.ok line :: input : List InputItem).length := by
      rw [List.length_cons]
      omega
    rw [List.cons_append, inputRows, inputRows, Trail.cons_append, inputRows_append, hlength]

/-- The rows of the first `p` items that reach the clause behind some steps. -/
def reaching (q : Invocation) (before : List Step) (input : List InputItem) (p : Nat) : List Row :=
  (rowsBehind before (q.inputRows 0 (input.take p))).values

/-- A run whose `take` has had its last row brings nothing of later items. -/
theorem trail_start_of_taken {q : Invocation} {before later : List Step} {count : Node}
    (hsteps : q.plan.steps = before ++ .take count :: later) {input : List InputItem} {p n : Nat}
    {row : Row} (hfirst : (q.reaching before input p).head? = some row)
    (hcount : countOf .take none count row = .ok n)
    (hlast : n ≤ (q.reaching before input p).length) (more : List InputItem) :
    q.trail q.start (input.take p ++ more) = q.trail q.start (input.take p) := by
  have hpipe : ∀ items, q.trail q.start items =
      pipe q.plan.select later (later.map fun _ => none)
        ((Step.take count).rows none (rowsBehind before (q.inputRows 0 items))) := by
    intro items
    have hstart : q.trail q.start items = pipe q.plan.select q.plan.steps
        (q.plan.steps.map fun _ => none) (q.inputRows 0 items) := rfl
    rw [hstart, hsteps, pipe_append]
    rfl
  obtain ⟨u, hu⟩ := exists_rowsBehind_append before (q.inputRows 0 (input.take p))
    (q.inputRows (0 + (input.take p).length) more)
  rw [hpipe, hpipe, inputRows_append, hu, rows_take_append hfirst hcount hlast]

/-- A run whose `take` has had its last row reads nothing more. -/
theorem pulled_le_of_taken {q : Invocation} {before later : List Step} {count : Node}
    (hsteps : q.plan.steps = before ++ .take count :: later) {input : List InputItem} {p n : Nat}
    {row : Row} (hfirst : (q.reaching before input p).head? = some row)
    (hcount : countOf .take none count row = .ok n)
    (hlast : n ≤ (q.reaching before input p).length) (k : Nat) :
    (q.answer q.start input k).run.pulled ≤ p := by
  refine Nat.le_of_not_lt fun hlt => ?_
  obtain ⟨done, counters, hmore⟩ := open_answer q k q.start input (Nat.zero_le p) hlt
  -- Such a run would tell one error behind the first `p` items from another.
  have herror : ∀ message, (q.trail q.start (input.take p)).toList =
      done ++ [.error (.input message)] := by
    intro message
    have htaken := trail_start_of_taken hsteps hfirst hcount hlast [.error message]
    have hopen := hmore [.error message]
    rw [inputRows, pipe_fail] at hopen
    rw [← htaken]
    exact hopen
  have hsame := (herror "a").symm.trans (herror "b")
  simp at hsame

end Invocation

/-! ## Plans -/

/-- The number of items that a run of a plan with extra arguments has read when it has answered
the request with number `k`. -/
def Plan.pulled (plan : Plan) (args : List String) (input : List InputItem) (k : Nat) : Nat :=
  ((plan.invoke args).answer (plan.invoke args).start input k).run.pulled

section

variable {plan : Plan} {args : List String} {input : List InputItem} {k : Nat}

/-- An item depends on nothing behind the items that were read for it. -/
theorem Plan.item?_of_take (h : (plan.item? args input k).isSome) {other : List InputItem}
    (hother : other.take (plan.pulled args input k) = input.take (plan.pulled args input k)) :
    plan.item? args other k = plan.item? args input k ∧
      plan.pulled args other k = plan.pulled args input k := by
  obtain ⟨read, hinput, hpulled, hmore⟩ :=
    Invocation.exists_read_answer (plan.invoke args) k _ input h
  have hlength : plan.pulled args input k = read.length := by
    rw [Plan.pulled, hpulled]
    exact Nat.zero_add _
  have hread : input.take (plan.pulled args input k) = read := by
    rw [hlength, hinput, List.take_left']
    rfl
  have hsplit : other = read ++ other.drop (plan.pulled args input k) := by
    rw [← hread, ← hother, List.take_append_drop]
  have hsame := hmore (other.drop (plan.pulled args input k))
  rw [← hsplit] at hsame
  constructor
  · rw [Plan.item?, hsame, Plan.item?]
  · rw [Plan.pulled, hsame, Plan.pulled]

/-- Nothing is pulled that is not there. -/
theorem Plan.pulled_le_length (h : (plan.item? args input k).isSome) :
    plan.pulled args input k ≤ input.length := by
  obtain ⟨read, hinput, hpulled, _⟩ :=
    Invocation.exists_read_answer (plan.invoke args) k _ input h
  rw [Plan.pulled, hpulled, hinput, List.length_append]
  change 0 + read.length ≤ _
  omega

/-- The number of items read for an item is the least that leads to it. -/
theorem Plan.isLeast_pulled (h : (plan.item? args input k).isSome) :
    IsLeast {p | (plan.item? args (input.take p) k).isSome} (plan.pulled args input k) := by
  refine ⟨?_, fun p hp => ?_⟩
  · have hfront : (input.take (plan.pulled args input k)).take (plan.pulled args input k) =
        input.take (plan.pulled args input k) := by
      rw [List.take_take, Nat.min_self]
    change (plan.item? args (input.take (plan.pulled args input k)) k).isSome
    rw [(Plan.item?_of_take h hfront).1]
    exact h
  · have hle := Plan.pulled_le_length hp
    -- The items read of the shorter input stand at the front of the longer one as well.
    have hfront : input.take (plan.pulled args (input.take p) k) =
        (input.take p).take (plan.pulled args (input.take p) k) := by
      rw [List.length_take] at hle
      rw [List.take_take, Nat.min_eq_left (Nat.le_trans hle (Nat.min_le_left ..))]
    have hsame := (Plan.item?_of_take hp hfront).2
    rw [List.length_take] at hle
    omega

/-- Earlier items need no more input than later ones. -/
theorem Plan.pulled_mono {j : Nat} (hle : j ≤ k) (h : (plan.item? args input k).isSome) :
    plan.pulled args input j ≤ plan.pulled args input k := by
  have hj : (plan.item? args input j).isSome := Invocation.isSome_item_of_le hle h
  have henough : (plan.item? args (input.take (plan.pulled args input k)) j).isSome :=
    Invocation.isSome_item_of_le hle (Plan.isLeast_pulled h).1
  exact (Plan.isLeast_pulled hj).2 henough

end

/-- Reading on demand. Nothing is read before the first request. For every item that a run gives,
it has read the least number of input items that leads to as many items, and any input that starts
with these leads to the same items so far. Once the rows that the first `p` items lead to in front
of a `take` are as many as it counts, one at least, no more than `p` items are ever read; and none
is read after an error. -/
theorem reads_on_demand (plan : Plan) (args : List String) (input : List InputItem) :
    (plan.invoke args).start.pulled = 0 ∧
    (∀ k, (plan.item? args input k).isSome →
      IsLeast {p | (plan.item? args (input.take p) k).isSome} (plan.pulled args input k) ∧
      ∀ other, other.take (plan.pulled args input k) = input.take (plan.pulled args input k) →
        ∀ j ≤ k, plan.item? args other j = plan.item? args input j) ∧
    (∀ before count later, plan.steps = before ++ .take count :: later → ∀ p row n,
      ((plan.invoke args).reaching before input p).head? = some row →
      countOf .take none count row = .ok n →
      n ≤ ((plan.invoke args).reaching before input p).length →
      ∀ k, plan.pulled args input k ≤ p) ∧
    ∀ k e, plan.item? args input k = some (.error e) →
      ∀ j, k ≤ j → plan.pulled args input j = plan.pulled args input k := by
  refine ⟨rfl, fun k h => ⟨Plan.isLeast_pulled h, ?_⟩, ?_, ?_⟩
  · intro other hother j hle
    -- The items read for an earlier answer are among those read for this one.
    have hj : (plan.item? args input j).isSome := Invocation.isSome_item_of_le hle h
    have hpulled : plan.pulled args input j ≤ plan.pulled args input k :=
      Plan.pulled_mono hle h
    refine (Plan.item?_of_take hj ?_).1
    rw [← Nat.min_eq_left hpulled, ← List.take_take, hother, List.take_take]
  · intro before count later hsteps p row n hfirst hcount hlast k
    exact Invocation.pulled_le_of_taken hsteps hfirst hcount hlast k
  · intro k e h j hle
    exact Invocation.pulled_of_error k _ input h j hle

/-- A query that takes three of the words of its lines gives the third word when it has read two
lines, and never meets the error behind them. -/
theorem reads_two_lines_for_three_words :
    ∃ plan : Plan, ∃ input : List InputItem, input.length = 3 ∧
      (plan.item? [] input 2).isSome ∧
      IsLeast {p | (plan.item? [] (input.take p) 2).isSome} (plan.pulled [] input 2) ∧
      plan.pulled [] input 2 = 2 ∧ ∀ k, plan.pulled [] input k ≤ 2 := by
  let at0 : Position := ⟨1, 1⟩
  let words : Node := .call .split [.slot 1 at0, .const (.str " ") at0] at0
  let three : Node := .const (.int 3) at0
  let plan : Plan :=
    { slots := 3, params := [0], input := ⟨1, none⟩
      steps := [.range 2 none words, .take three], select := .slot 2 at0 }
  let input : List InputItem := [.ok "a b", .ok "c d", .error "gone"]
  have hitem : (plan.item? [] input 2).isSome := by decide +kernel
  have hfirst : ((plan.invoke []).reaching [.range 2 none words] input 2).head? =
      some [.list [], .str "a b", .str "a"] := by rfl
  obtain ⟨-, hread, htake, -⟩ := reads_on_demand plan [] input
  refine ⟨plan, input, rfl, hitem, (hread 2 hitem).1, by decide +kernel, ?_⟩
  exact htake [.range 2 none words] three [] rfl 2 _ 3 hfirst rfl (by decide +kernel)

end LineQuery
