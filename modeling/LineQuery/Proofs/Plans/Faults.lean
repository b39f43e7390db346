import LineQuery.Proofs.Plans.Parts
import LineQuery.Proofs.Runs.Agreement
import LineQuery.Proofs.Runs.Pipeline

/-! # Where runs fail

A fault arises at a node, and its position is the one of that node. So whatever holds of the
positions of all nodes of a plan, holds of the position of each fault that a run of it ends with.
-/

namespace LineQuery

variable {α β : Type} {P : Position → Prop}

/-! ## Expressions -/

/-- Whether a computation fails, if it does, at a position that `P` holds of. -/
def Eval.FailsAt (P : Position → Prop) (x : Eval α) : Prop :=
  ∀ e, x.result = .error e → P e.pos

namespace Eval

theorem failsAt_of_ok {x : Eval α} {a : α} (h : x.result = .ok a) : FailsAt P x := by
  intro e he
  rw [h] at he
  cases he

theorem failsAt_pure (a : α) : FailsAt P (pure a : Eval α) :=
  failsAt_of_ok rfl

theorem failsAt_fail {e : EvalError} (h : P e.pos) : FailsAt P (Traced.fail e : Eval α) := by
  intro e' he
  cases he
  exact h

theorem failsAt_located {pos : Position} (h : P pos) (x : Except Fault α) :
    FailsAt P (located pos x) := by
  cases x with
  | ok a => exact failsAt_pure a
  | error fault => exact failsAt_fail h

theorem FailsAt.bind {x : Eval α} {next : α → Eval β} (hx : FailsAt P x)
    (hnext : ∀ a, FailsAt P (next a)) : FailsAt P (x >>= next) := by
  obtain ⟨warnings, result⟩ := x
  cases result with
  | ok a =>
    intro e he
    exact hnext a e he
  | error e =>
    intro e' he
    cases he
    exact hx e rfl

theorem failsAt_callValue {pos : Position} (h : P pos) (f : Builtin) (args : List Value) :
    FailsAt P (callValue f args pos) := by
  unfold callValue
  cases f.apply args with
  | ok v => exact failsAt_of_ok rfl
  | error e => exact failsAt_fail h

end Eval

open Eval

variable {row : Row}

mutual

/-- Evaluating a node fails at the position of one of its parts. -/
theorem failsAt_eval : ∀ {node : Node}, (∀ part ∈ node.parts, P part.pos) →
    FailsAt P (node.eval row)
  | .const v _, _ => failsAt_pure v
  | .slot i _, _ => failsAt_pure _
  | .list items _, h => by
    obtain ⟨-, hitems⟩ := List.forall_mem_cons.mp h
    exact (failsAt_evalAll hitems).bind fun _ => failsAt_pure _
  | .unary op operand pos, h => by
    obtain ⟨hself, hoperand⟩ := List.forall_mem_cons.mp h
    exact (failsAt_eval hoperand).bind fun v => failsAt_located hself _
  | .binary op left right pos, h => by
    obtain ⟨hself, hoperands⟩ := List.forall_mem_cons.mp h
    obtain ⟨hleft, hright⟩ := List.forall_mem_append.mp hoperands
    have hr := failsAt_eval hright
    refine (failsAt_eval hleft).bind fun a => ?_
    cases deciding? op with
    | none => exact hr.bind fun b => failsAt_located hself _
    | some decision =>
      -- a logical operator fails itself if one of its operands is not a truth value
      cases a with
      | bool a =>
        by_cases hdecides : a = decision
        · simp only [hdecides, ↓reduceIte]
          exact failsAt_pure _
        · simp only [hdecides, ↓reduceIte]
          refine hr.bind fun b => ?_
          cases b with
          | bool b => exact failsAt_pure _
          | _ => exact failsAt_fail hself
      | _ => exact failsAt_fail hself
  | .index base position pos, h => by
    obtain ⟨hself, hparts⟩ := List.forall_mem_cons.mp h
    obtain ⟨hbase, hposition⟩ := List.forall_mem_append.mp hparts
    refine (failsAt_eval hbase).bind fun v => ?_
    refine (failsAt_eval hposition).bind fun i => ?_
    exact (failsAt_located hself _).bind fun i => failsAt_located hself _
  | .call f args pos, h => by
    obtain ⟨hself, hargs⟩ := List.forall_mem_cons.mp h
    -- the arguments of `case` are evaluated one at a time, those of other functions before the call
    by_cases hcase : f = .case
    · subst hcase
      exact failsAt_evalCase hself hargs
    · rw [eval_call hcase]
      exact (failsAt_evalAll hargs).bind fun vs => failsAt_callValue hself f vs

theorem failsAt_evalAll : ∀ {nodes : List Node}, (∀ part ∈ Node.partsAll nodes, P part.pos) →
    FailsAt P (Node.evalAll row nodes)
  | [], _ => failsAt_pure _
  | node :: nodes, h => by
    obtain ⟨hnode, hnodes⟩ := List.forall_mem_append.mp h
    refine (failsAt_eval hnode).bind fun v => ?_
    exact (failsAt_evalAll hnodes).bind fun vs => failsAt_pure _

theorem failsAt_evalCase {pos : Position} (hpos : P pos) : ∀ {nodes : List Node},
    (∀ part ∈ Node.partsAll nodes, P part.pos) → FailsAt P (Node.evalCase row pos nodes)
  | [], _ | [_], _ => failsAt_fail hpos
  | value :: first :: rest, h => by
    obtain ⟨hvalue, hrest⟩ := List.forall_mem_append.mp h
    exact (failsAt_eval hvalue).bind fun v => failsAt_evalChoice hpos hrest

theorem failsAt_evalChoice {pos : Position} {v : Value} (hpos : P pos) : ∀ {nodes : List Node},
    (∀ part ∈ Node.partsAll nodes, P part.pos) → FailsAt P (Node.evalChoice row pos v nodes)
  | [], _ => failsAt_fail hpos
  | [default], h => by
    obtain ⟨hdefault, -⟩ := List.forall_mem_append.mp h
    exact failsAt_eval hdefault
  | [key, default], h => by
    obtain ⟨-, hrest⟩ := List.forall_mem_append.mp h
    obtain ⟨hdefault, -⟩ := List.forall_mem_append.mp hrest
    exact failsAt_eval hdefault
  | key :: result :: third :: rest, h => by
    obtain ⟨hkey, hbehind⟩ := List.forall_mem_append.mp h
    obtain ⟨hresult, hrest⟩ := List.forall_mem_append.mp hbehind
    refine (failsAt_eval hkey).bind fun k => ?_
    by_cases hk : k = v
    · simp only [hk, ↓reduceIte]
      exact failsAt_eval hresult
    · simp only [hk, ↓reduceIte]
      exact failsAt_evalChoice hpos hrest

end

/-! ## Steps -/

/-- What a step evaluates fails where its node does, or at the position of the node itself. -/
theorem failsAt_evalItems {source : Node} (h : ∀ part ∈ source.parts, P part.pos) :
    FailsAt P (evalItems row source) := by
  refine (failsAt_eval h).bind fun v => ?_
  cases v with
  | list items => exact failsAt_pure items
  | _ => exact failsAt_fail (h source source.mem_parts_self)

theorem failsAt_evalCondition {cond : Node} (h : ∀ part ∈ cond.parts, P part.pos) :
    FailsAt P (evalCondition row cond) := by
  refine (failsAt_eval h).bind fun v => ?_
  cases v with
  | bool b => exact failsAt_pure b
  | _ => exact failsAt_fail (h cond cond.mem_parts_self)

theorem failsAt_evalCount {count : Node} (clause : CountClause) (left : Option Nat)
    (h : ∀ part ∈ count.parts, P part.pos) : FailsAt P (evalCount clause left row count) := by
  have hself := h count count.mem_parts_self
  cases left with
  | some n => exact failsAt_pure n
  | none =>
    refine (failsAt_eval h).bind fun v => ?_
    cases v with
    | int n =>
      by_cases hn : n < 0
      · simp only [hn, ↓reduceIte]
        exact failsAt_fail hself
      · simp only [hn, ↓reduceIte]
        exact failsAt_pure _
    | _ => exact failsAt_fail hself

/-- Whether progress has failed, if it has, in the input or at a position that `P` holds of. -/
def Progress.FailsAt (P : Position → Prop) (p : Progress) : Prop :=
  ∀ e, p = .failed (.eval e) → P e.pos

namespace Progress

theorem failsAt_flowing : FailsAt P .flowing := by
  intro e he
  cases he

theorem failsAt_closed : FailsAt P .closed := by
  intro e he
  cases he

theorem failsAt_input (message : String) : FailsAt P (.failed (.input message)) := by
  intro e he
  cases he

end Progress

namespace Passage

variable {p : Passage}

theorem failsAt_nothing (counters : Counters) : (nothing counters).progress.FailsAt P :=
  Progress.failsAt_flowing

theorem failsAt_andThen {next : Counters → Passage} (hp : p.progress.FailsAt P)
    (hnext : ∀ counters, (next counters).progress.FailsAt P) :
    (p.andThen next).progress.FailsAt P := by
  unfold andThen
  split
  · exact hnext p.counters
  · exact hp

theorem failsAt_ofEval {x : Eval α} {next : α → Passage} (hx : FailsAt P x)
    (hnext : ∀ a, (next a).progress.FailsAt P) (counters : Counters) :
    (ofEval counters x next).progress.FailsAt P := by
  unfold ofEval
  split
  · exact hnext _
  · rename_i e he
    intro e' h
    cases h
    exact hx e he

theorem failsAt_close (hp : p.progress.FailsAt P) : p.close.progress.FailsAt P := by
  unfold close
  split
  · exact Progress.failsAt_closed
  · exact hp

theorem failsAt_ofEach {push : Counters → α → Passage}
    (hpush : ∀ counters x, (push counters x).progress.FailsAt P) :
    ∀ (xs : List α) (counters : Counters), (ofEach push counters xs).progress.FailsAt P
  | [], counters => failsAt_nothing counters
  | x :: xs, counters => failsAt_andThen (hpush counters x) (failsAt_ofEach hpush xs)

end Passage

/-- A row fails in the steps of a plan at the position of a part of one of their nodes. -/
theorem failsAt_passRow {select : Node} : ∀ {steps : List Step} {filled : List Nat},
    (∀ use ∈ usesFrom filled select steps, ∀ part ∈ use.node.parts, P part.pos) →
    ∀ counters row, (passRow select steps counters row).progress.FailsAt P
  | [], filled, h, counters, row => by
    have hselect := h _ (List.mem_singleton_self _)
    refine Passage.failsAt_ofEval (failsAt_eval hselect) (fun v => ?_) counters
    exact Progress.failsAt_flowing
  | step :: steps, filled, h, counters, row => by
    obtain ⟨hnode, hrest⟩ := List.forall_mem_cons.mp h
    -- Later steps may be put any rows with any counters.
    have ih := failsAt_passRow hrest
    cases step with
    | range var index source =>
      refine Passage.failsAt_ofEval (failsAt_evalItems hnode) (fun items => ?_) counters
      exact Passage.failsAt_ofEach ih _ _
    | filter cond =>
      refine Passage.failsAt_ofEval (failsAt_evalCondition hnode) (fun keep => ?_) counters
      cases keep with
      | true => exact ih _ _
      | false => exact Passage.failsAt_nothing _
    | bind slot value =>
      refine Passage.failsAt_ofEval (failsAt_eval hnode) (fun v => ?_) counters
      exact ih _ _
    | skip count =>
      refine Passage.failsAt_ofEval (failsAt_evalCount .skip _ hnode) (fun n => ?_) counters
      cases n with
      | zero => exact ih _ _
      | succ n => exact Passage.failsAt_nothing _
    | take count =>
      refine Passage.failsAt_ofEval (failsAt_evalCount .take _ hnode) (fun n => ?_) counters
      match n with
      | 0 => exact Passage.failsAt_close (Passage.failsAt_nothing _)
      | 1 => exact Passage.failsAt_close (ih _ _)
      | n + 2 => exact ih _ _

/-! ## Runs -/

/-- The position of an error, unless reading the input met it. -/
def RunError.pos? : RunError → Option Position
  | .input _ => none
  | .eval e => some e.pos

theorem RunError.pos?_eq_some_iff {error : RunError} {pos : Position} :
    error.pos? = some pos ↔ ∃ e, error = .eval e ∧ e.pos = pos := by
  cases error with
  | input message =>
    refine iff_of_false (fun h => ?_) ?_
    · cases h
    · rintro ⟨e, he, -⟩
      cases he
  | eval e =>
    rw [pos?, Option.some.injEq]
    constructor
    · intro h
      exact ⟨e, rfl, h⟩
    · rintro ⟨e', he, rfl⟩
      cases he
      rfl

namespace Invocation

variable {q : Invocation}

theorem failsAt_feed (h : ∀ part ∈ q.plan.parts, P part.pos) (run : Run) (item : InputItem) :
    (q.feed run item).progress.FailsAt P := by
  cases item with
  | error message => exact Progress.failsAt_input message
  | ok line =>
    have huses : ∀ use ∈ q.plan.uses, ∀ part ∈ use.node.parts, P part.pos := by
      intro use huse part hpart
      exact h part (List.mem_flatMap.mpr ⟨use, huse, hpart⟩)
    exact failsAt_passRow huses _ _

/-- The error of an answer is at the position of a node, and so is one that the run behind it has
still to give. -/
theorem failsAt_next (h : ∀ part ∈ q.plan.parts, P part.pos) : ∀ (input : List InputItem)
    (run : Run), run.progress.FailsAt P →
      (∀ e, (q.next run input).item = some (.error (.eval e)) → P e.pos) ∧
        (q.next run input).run.progress.FailsAt P
  | input, ⟨line :: lines, counters, progress, pulled, warnings⟩, hrun => by
    rw [next.eq_def]
    refine ⟨?_, hrun⟩
    intro e he
    cases he
  | input, ⟨[], counters, .failed e, pulled, warnings⟩, hrun => by
    rw [next.eq_def]
    refine ⟨?_, Progress.failsAt_closed⟩
    intro e' he
    cases he
    exact hrun e' rfl
  | input, ⟨[], counters, .closed, pulled, warnings⟩, _ => by
    rw [next.eq_def]
    refine ⟨?_, Progress.failsAt_closed⟩
    intro e he
    cases he
  | [], ⟨[], counters, .flowing, pulled, warnings⟩, _ => by
    rw [next.eq_def]
    refine ⟨?_, Progress.failsAt_closed⟩
    intro e he
    cases he
  | item :: input, ⟨[], counters, .flowing, pulled, warnings⟩, _ => by
    -- no line waits, so the next item of the input is read
    rw [next.eq_def]
    exact failsAt_next h input _ (failsAt_feed h _ item)

/-- Each error that a run gives is at the position of a node of its plan. -/
theorem failsAt_answer (h : ∀ part ∈ q.plan.parts, P part.pos) : ∀ (k : Nat) (run : Run)
    (input : List InputItem), run.progress.FailsAt P →
      ∀ e, (q.answer run input k).item = some (.error (.eval e)) → P e.pos
  | 0, run, input, hrun => (failsAt_next h input run hrun).1
  | k + 1, run, input, hrun => failsAt_answer h k _ _ (failsAt_next h input run hrun).2

theorem failsAt_finish (h : ∀ part ∈ q.plan.parts, P part.pos) : ∀ (input : List InputItem)
    (done : List String) (run : Run), run.progress.FailsAt P →
      (q.finish done run input).2.progress.FailsAt P
  | [], done, run, hrun => hrun
  | item :: input, done, run, hrun => by
    unfold finish
    dsimp only
    split
    · exact failsAt_finish h input _ _ (failsAt_feed h _ item)
    · exact hrun

/-- The error that a run to the end ends with is at the position of a node of its plan. -/
theorem failsAt_run (h : ∀ part ∈ q.plan.parts, P part.pos) (input : List InputItem) {e : EvalError}
    (he : (q.run input).2.1 = some (.eval e)) : P e.pos := by
  have hfinish := failsAt_finish h input [] q.start Progress.failsAt_flowing
  unfold run at he
  dsimp only at he
  split at he
  · rename_i e' hprogress
    cases he
    exact hfinish e hprogress
  · exact nomatch he

end Invocation

end LineQuery
