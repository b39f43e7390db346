import LineQuery.Proofs.Runs.Trail

/-! # A run as a whole

A run puts one row after another through its steps and stops as soon as it can; `pipe` puts
the trail of all rows through one step after another. Both bring the same: each line that a
run gives is the next item of the trail, and behind its last item the run gives nothing.
-/

namespace LineQuery

/-! ## The steps of a plan on trails -/

namespace Trail

variable {α β : Type}

/-- What comes of the value of a computation. -/
def ofEval (x : Eval α) (f : α → Trail RunError β) : Trail RunError β :=
  match x.result with
  | .ok a => f a
  | .error e => .fail (.eval e)

end Trail

/-- The number that a clause counts up to, on the row that determines it. -/
def countOf (clause : CountClause) (left : Option Nat) (count : Node) (row : Row) :
    Except RunError Nat :=
  (evalCount clause left row count).result.mapError .eval

/-- The rows behind a step, for the rows in front of it. `left` is what a step that counts has
left to skip or take, if that is known. -/
def Step.rows (left : Option Nat) (step : Step) (t : Trail RunError Row) : Trail RunError Row :=
  match step with
  | .range var index source =>
    t.bind fun row => .ofEval (evalItems row source) fun items =>
      .ofList (expandRow row var index items)
  | .filter cond =>
    t.bind fun row => .ofEval (evalCondition row cond) fun keep =>
      if keep then .cons row .done else .done
  | .bind slot value =>
    t.bind fun row => .ofEval (value.eval row) fun v => .cons (row.set slot v) .done
  | .skip count => t.counted .drop (countOf .skip left count)
  | .take count => t.counted .take (countOf .take left count)

/-- The lines that a selected row is written on. -/
def selectLines (select : Node) (row : Row) : Trail RunError String :=
  .ofEval (select.eval row) fun v => .ofList (outputLines v)

/-- The lines that rows lead to. -/
def pipe (select : Node) : List Step → Counters → Trail RunError Row → Trail RunError String
  | [], _, t => t.bind (selectLines select)
  | step :: steps, counters, t =>
    pipe select steps counters.tail (step.rows counters.head?.join t)

@[simp] theorem Step.rows_done (left : Option Nat) (step : Step) :
    step.rows left .done = .done := by
  cases step <;> rfl

@[simp] theorem Step.rows_fail (left : Option Nat) (step : Step) (e : RunError) :
    step.rows left (.fail e) = .fail e := by
  cases step <;> rfl

@[simp] theorem pipe_done (select : Node) : ∀ (steps : List Step) (counters : Counters),
    pipe select steps counters .done = .done
  | [], _ => rfl
  | step :: steps, counters => by rw [pipe, Step.rows_done, pipe_done]

/-- An error at the source is the last that comes out of a pipeline. -/
@[simp] theorem pipe_fail (select : Node) (e : RunError) :
    ∀ (steps : List Step) (counters : Counters),
      pipe select steps counters (.fail e) = .fail e
  | [], _ => rfl
  | step :: steps, counters => by rw [pipe, Step.rows_fail, pipe_fail]

/-! ## One row -/

/-- What comes after progress: `t` if the run goes on, and else its end. -/
def Progress.onward {α : Type} (p : Progress) (t : Trail RunError α) : Trail RunError α :=
  match p with
  | .flowing => t
  | .closed => .done
  | .failed e => .fail e

namespace Passage

/-- The lines of a passage and what comes after them, which depends on the counters. -/
def trail (p : Passage) (next : Counters → Trail RunError String) : Trail RunError String :=
  .ofList p.lines ++ p.progress.onward (next p.counters)

variable {next : Counters → Trail RunError String}

/-- The rows of two passages are those of the first, and then those of the second. -/
theorem trail_andThen (p : Passage) (q : Counters → Passage) :
    (p.andThen q).trail next = p.trail fun counters => (q counters).trail next := by
  unfold andThen
  split
  · rename_i h
    simp only [trail, h, Progress.onward, Trail.ofList_append, Trail.append_assoc]
  · rename_i h
    cases hp : p.progress with
    | flowing => exact absurd hp h
    | closed => simp only [trail, hp, Progress.onward]
    | failed e => simp only [trail, hp, Progress.onward]

/-- A passage that depends on a value has the rows of that value, or its error. -/
theorem trail_ofEval {α : Type} (counters : Counters) (x : Eval α) (f : α → Passage) :
    (ofEval counters x f).trail next = .ofEval x fun a => (f a).trail next := by
  unfold ofEval Trail.ofEval
  cases x.result <;> rfl

theorem trail_behind (own : Option Nat) (p : Passage) :
    (p.behind own).trail next = p.trail fun counters => next (own :: counters) := rfl

/-- Nothing comes behind the last row that a step lets through. -/
theorem trail_close (p : Passage) : p.close.trail next = p.trail fun _ => .done := by
  unfold close
  cases h : p.progress <;> simp [trail, h, Progress.onward]

/-- Rows that are put in one after another bring what the trail of the rows brings. -/
theorem trail_ofEach {push : Counters → Row → Passage}
    {through : Counters → Trail RunError Row → Trail RunError String}
    (hpush : ∀ counters row t,
      through counters (.cons row t) = (push counters row).trail (through · t))
    (t : Trail RunError Row) : ∀ (rows : List Row) (counters : Counters),
      through counters (.ofList rows ++ t) = (ofEach push counters rows).trail (through · t)
  | [], _ => rfl
  | row :: rows, counters => by
    rw [ofEach, trail_andThen, Trail.ofList, Trail.cons_append, hpush]
    congr 1
    funext counters'
    exact trail_ofEach hpush t rows counters'

end Passage

/-- Counting rows down drops the first of them. -/
theorem counted_drop (n : Nat) : ∀ t : Trail RunError Row,
    t.counted .drop (fun _ => .ok n) = t.drop n
  | .done => by cases n <;> rfl
  | .fail _ => by cases n <;> rfl
  | .cons _ _ => rfl

/-- Counting rows down takes the first of them, and ends with the last. -/
theorem counted_take (n : Nat) : ∀ t : Trail RunError Row,
    t.counted .take (fun _ => .ok (n + 1)) = t.take (n + 1)
  | .done => rfl
  | .fail _ => rfl
  | .cons _ _ => rfl

/-- Where evaluating fails, so does the pipeline, at the same row. -/
theorem pipe_ofEval {α : Type} {select : Node} {steps : List Step} {counters : Counters}
    {t : Trail RunError Row} (x : Eval α) (f : α → Trail RunError Row) :
    pipe select steps counters (.ofEval x f ++ t) =
      .ofEval x fun a => pipe select steps counters (f a ++ t) := by
  unfold Trail.ofEval
  cases x.result with
  | ok a => rfl
  | error e => exact pipe_fail select (.eval e) steps counters

/-- A row in front of a trail: what the row brings on its way through the steps, and then what
the trail brings with the counters after it. -/
theorem pipe_cons (select : Node) : ∀ (steps : List Step) (counters : Counters) (row : Row)
    (t : Trail RunError Row), pipe select steps counters (.cons row t) =
      (passRow select steps counters row).trail fun counters => pipe select steps counters t
  | [], counters, row, t => by
    rw [pipe, Trail.bind_cons, passRow, Passage.trail_ofEval, selectLines]
    unfold Trail.ofEval
    cases (select.eval row).result <;> rfl
  | step :: steps, counters, row, t => by
    -- Later steps may be put rows with any counters, so the induction is for all of them.
    have ih := pipe_cons select steps
    rw [pipe]
    cases step with
    | range var index source =>
      simp only [passRow, Step.rows, Trail.bind_cons, pipe_ofEval, Passage.trail_ofEval,
        Passage.trail_behind]
      congr 1
      funext items
      exact Passage.trail_ofEach ih _ _ _
    | filter cond =>
      simp only [passRow, Step.rows, Trail.bind_cons, pipe_ofEval, Passage.trail_ofEval]
      congr 1
      funext keep
      cases keep with
      | true => exact ih _ _ _
      | false => rfl
    | bind slot value =>
      simp only [passRow, Step.rows, Trail.bind_cons, pipe_ofEval, Passage.trail_ofEval,
        Passage.trail_behind]
      congr 1
      funext v
      exact ih _ _ _
    | skip count =>
      rw [passRow, Passage.trail_ofEval, Step.rows, Trail.counted, countOf, Trail.ofEval]
      cases (evalCount .skip counters.head?.join row count).result with
      | error e => exact pipe_fail select (.eval e) _ _
      | ok n =>
        cases n with
        | zero =>
          -- Nothing is left to skip, so all later rows come through as well.
          refine (ih _ _ _).trans ?_
          change _ = (passRow select steps counters.tail row).trail fun counters' =>
            pipe select steps counters' (t.counted .drop fun _ => .ok 0)
          rw [counted_drop, Trail.drop_zero]
        | succ n => exact (congrArg (pipe select steps _) (counted_drop n t)).symm
    | take count =>
      rw [passRow, Passage.trail_ofEval, Step.rows, Trail.counted, countOf, Trail.ofEval]
      cases (evalCount .take counters.head?.join row count).result with
      | error e => exact pipe_fail select (.eval e) _ _
      | ok n =>
        cases n with
        | zero => exact pipe_done select _ _
        | succ n =>
          cases n with
          | zero =>
            -- This row is the last one: nothing behind it is looked at.
            refine (ih _ _ _).trans ?_
            refine Eq.trans ?_ (Passage.trail_close _).symm
            exact congrArg (Passage.trail _) (funext fun counters' => pipe_done select _ _)
          | succ n =>
            refine (ih _ _ _).trans ?_
            change _ = (passRow select steps counters.tail row).trail fun counters' =>
              pipe select steps counters' (t.counted .take fun _ => .ok (n + 1))
            rw [counted_take]

/-! ## Runs -/

namespace Invocation

def inputRows (q : Invocation) : Nat → List InputItem → Trail RunError Row
  | _, [] => .done
  | i, .ok line :: input => .cons (q.inputRow line i) (q.inputRows (i + 1) input)
  | _, .error message :: _ => .fail (.input message)

/-- All that a run still brings: the lines that wait, and what comes of the rest of the
input. -/
def trail (q : Invocation) (run : Run) (input : List InputItem) : Trail RunError String :=
  .ofList run.waiting ++ run.progress.onward
    (pipe q.plan.select q.plan.steps run.counters (q.inputRows run.pulled input))

/-- Reading an item takes nothing away from what a run brings. -/
theorem trail_feed (q : Invocation) {run : Run} (hwaiting : run.waiting = [])
    (hflowing : run.progress = .flowing) (item : InputItem) (input : List InputItem) :
    q.trail (q.feed run item) input = q.trail run (item :: input) := by
  cases item with
  | error message =>
    simp [trail, feed, hwaiting, hflowing, Progress.onward, Trail.ofList, inputRows]
  | ok line =>
    simp only [trail, feed, hwaiting, hflowing, Progress.onward, Trail.ofList, inputRows,
      Trail.done_append, pipe_cons, List.nil_append]
    rfl

/-- An answer is the first item of what the run brings, and the run behind it brings the
others. -/
theorem toList_trail_next (q : Invocation) : ∀ (input : List InputItem) (run : Run),
    (q.next run input).item = (q.trail run input).toList.head? ∧
      (q.trail (q.next run input).run (q.next run input).rest).toList =
        (q.trail run input).toList.tail
  | input, ⟨line :: lines, counters, progress, pulled, warnings⟩ => by
    rw [next.eq_def]
    exact ⟨rfl, rfl⟩
  | input, ⟨[], counters, .failed e, pulled, warnings⟩ => by
    rw [next.eq_def]
    exact ⟨rfl, rfl⟩
  | input, ⟨[], counters, .closed, pulled, warnings⟩ => by
    rw [next.eq_def]
    exact ⟨rfl, rfl⟩
  | [], ⟨[], counters, .flowing, pulled, warnings⟩ => by
    have hnothing : q.trail ⟨[], counters, .flowing, pulled, warnings⟩ [] = .done :=
      pipe_done _ _ _
    rw [next, hnothing]
    exact ⟨rfl, rfl⟩
  | item :: input, ⟨[], counters, .flowing, pulled, warnings⟩ => by
    rw [next, ← q.trail_feed rfl rfl item input]
    exact toList_trail_next q input _

def answer (q : Invocation) (run : Run) (input : List InputItem) : Nat → Answer
  | 0 => q.next run input
  | k + 1 => q.answer (q.next run input).run (q.next run input).rest k

/-- A run gives the items of its trail in their order, and nothing behind the last. -/
theorem item_answer (q : Invocation) : ∀ (k : Nat) (run : Run) (input : List InputItem),
    (q.answer run input k).item = (q.trail run input).toList[k]?
  | 0, run, input => by
    rw [answer, (q.toList_trail_next input run).1, List.head?_eq_getElem?]
  | k + 1, run, input => by
    rw [answer, item_answer q k, (q.toList_trail_next input run).2, List.getElem?_tail]

end Invocation

/-- The item that a run of a plan with extra arguments gives to the request with number `k`. -/
def Plan.item? (plan : Plan) (args : List String) (input : List InputItem) (k : Nat) :
    Option (Except RunError String) :=
  ((plan.invoke args).answer (plan.invoke args).start input k).item

/-- Behind an error a run gives nothing. -/
theorem Plan.item?_of_error {plan : Plan} {args : List String} {input : List InputItem}
    {j k : Nat} {e : RunError} (h : plan.item? args input j = some (.error e)) (hlt : j < k) :
    plan.item? args input k = none := by
  rw [Plan.item?, Invocation.item_answer] at h ⊢
  exact Trail.getElem?_toList_of_error h hlt

end LineQuery
