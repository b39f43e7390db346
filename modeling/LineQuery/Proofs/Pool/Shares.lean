import LineQuery.Pool.Pass
import Mathlib.Algebra.BigOperators.Group.Finset.Piecewise
import Mathlib.Algebra.BigOperators.Group.Finset.Basic
import Mathlib.Algebra.GroupWithZero.Nat

/-! # Shares

Items that are dealt to `n` places in turn: to place `k` fall those whose number leaves the
remainder `k` when it is divided by `n`. Each item falls to one place, no place gets two items more
than another one, and who takes one item from each place in turn gets the items in their order.
-/

namespace LineQuery.Pool

variable {α β : Type}

/-- The items that fall to place `k` of `n`, where the first of `xs` has the number `m`. -/
def dealt (n k m : Nat) (xs : List α) : List α :=
  ((xs.zipIdx m).filter fun x => x.2 % n = k).map Prod.fst

variable {n k m : Nat} {x : α} {xs : List α}

@[simp] theorem dealt_nil : dealt n k m ([] : List α) = [] := rfl

theorem dealt_cons (n k m : Nat) (x : α) (xs : List α) :
    dealt n k m (x :: xs) =
      if m % n = k then x :: dealt n k (m + 1) xs else dealt n k (m + 1) xs := by
  by_cases h : m % n = k
  · simp [dealt, List.zipIdx_cons, h]
  · simp [dealt, List.zipIdx_cons, h]

theorem dealt_cons_self (h : m % n = k) : dealt n k m (x :: xs) = x :: dealt n k (m + 1) xs := by
  rw [dealt_cons, if_pos h]

theorem dealt_cons_of_ne (h : m % n ≠ k) : dealt n k m (x :: xs) = dealt n k (m + 1) xs := by
  rw [dealt_cons, if_neg h]

/-- What is dealt has no part in who gets it. -/
theorem dealt_map (f : α → β) (n k m : Nat) (xs : List α) :
    dealt n k m (xs.map f) = (dealt n k m xs).map f := by
  induction xs generalizing m with
  | nil => rfl
  | cons x xs ih =>
    rw [List.map_cons, dealt_cons, dealt_cons, ih]
    split <;> rfl

theorem mem_of_mem_dealt (h : x ∈ dealt n k m xs) : x ∈ xs := by
  induction xs generalizing m with
  | nil => exact h
  | cons y xs ih =>
    rw [dealt_cons] at h
    split at h
    · rcases List.mem_cons.mp h with hfirst | hrest
      · exact hfirst ▸ List.mem_cons_self
      · exact List.mem_cons_of_mem _ (ih hrest)
    · exact List.mem_cons_of_mem _ (ih h)

/-- The number after `m`, as it is counted in turn. -/
theorem succ_mod (hn : 0 < n) (m : Nat) :
    (m + 1) % n = if m % n + 1 < n then m % n + 1 else 0 := by
  have hlt : m % n < n := Nat.mod_lt m hn
  rw [← Nat.mod_add_mod]
  split
  · exact Nat.mod_eq_of_lt (by assumption)
  · have hround : m % n + 1 = n := by omega
    rw [hround, Nat.mod_self]

/-- The lines that fall to a worker are those that are dealt to its place. -/
theorem share_eq_dealt (hn : 0 < n) (k m : Nat) (lines : List String) :
    share n k (m % n) lines = dealt n k m lines := by
  induction lines generalizing m with
  | nil => rfl
  | cons line lines ih =>
    have hrest : share n k (if m % n + 1 < n then m % n + 1 else 0) lines =
        dealt n k (m + 1) lines := by
      rw [← succ_mod hn, ih]
    rw [share, dealt_cons, hrest]
    simp only [eq_comm]

/-! ## Which items fall to a place -/

/-- How many items from number `m` on fall to other places before place `k` gets one. -/
def turnsBefore (n k m : Nat) : Nat :=
  if m % n ≤ k then k - m % n else k + n - m % n

theorem turnsBefore_of_mod_eq (h : m % n = k) : turnsBefore n k m = 0 := by
  rw [turnsBefore, if_pos (Nat.le_of_eq h), h, Nat.sub_self]

/-- After its turn, a place waits until all others have had theirs. -/
theorem turnsBefore_succ_of_eq (hn : 0 < n) (h : m % n = k) : turnsBefore n k (m + 1) + 1 = n := by
  have hlt : m % n < n := Nat.mod_lt m hn
  unfold turnsBefore
  rw [succ_mod hn]
  split <;> split <;> omega

theorem turnsBefore_succ_of_ne (hn : 0 < n) (hk : k < n) (h : m % n ≠ k) :
    turnsBefore n k (m + 1) + 1 = turnsBefore n k m := by
  have hlt : m % n < n := Nat.mod_lt m hn
  unfold turnsBefore
  rw [succ_mod hn]
  split <;> split <;> split <;> omega

/-- A place gets the item at its first turn and every `n`th one after it. -/
theorem getElem?_dealt_from (hk : k < n) (m q : Nat) (xs : List α) :
    (dealt n k m xs)[q]? = xs[turnsBefore n k m + q * n]? := by
  have hn : 0 < n := Nat.zero_lt_of_lt hk
  -- each item comes one nearer to the next turn of the place
  induction xs generalizing m q with
  | nil => simp
  | cons x xs ih =>
    by_cases hturn : m % n = k
    · rw [dealt_cons_self hturn, turnsBefore_of_mod_eq hturn, Nat.zero_add]
      cases q with
      | zero => simp
      | succ q =>
        have hnext : turnsBefore n k (m + 1) + 1 = n := turnsBefore_succ_of_eq hn hturn
        have hplace : (q + 1) * n = turnsBefore n k (m + 1) + q * n + 1 := by
          rw [Nat.succ_mul]
          omega
        rw [hplace, List.getElem?_cons_succ, List.getElem?_cons_succ, ih]
    · have hnext : turnsBefore n k (m + 1) + 1 = turnsBefore n k m :=
        turnsBefore_succ_of_ne hn hk hturn
      have hplace : turnsBefore n k m + q * n = turnsBefore n k (m + 1) + q * n + 1 := by omega
      rw [dealt_cons_of_ne hturn, hplace, List.getElem?_cons_succ, ih]

/-- Place `k` gets the items with the numbers `k`, `k + n`, `k + 2 * n` and so on. -/
theorem getElem?_dealt (hk : k < n) (q : Nat) (xs : List α) :
    (dealt n k 0 xs)[q]? = xs[k + q * n]? := by
  have hwait : turnsBefore n k 0 = k := by
    rw [turnsBefore, Nat.zero_mod, if_pos (Nat.zero_le k), Nat.sub_zero]
  rw [getElem?_dealt_from hk, hwait]

/-! ## How many items fall to a place -/

/-- How many a place gets tells how many there are, up to one round. -/
theorem length_dealt_le_iff (hk : k < n) (q : Nat) (xs : List α) :
    (dealt n k 0 xs).length ≤ q ↔ xs.length ≤ k + q * n := by
  rw [← List.getElem?_eq_none_iff, getElem?_dealt hk, List.getElem?_eq_none_iff]

/-- No place gets two items more than another one. -/
theorem length_dealt_le_succ {k' : Nat} (hk : k < n) (hk' : k' < n) (xs : List α) :
    (dealt n k 0 xs).length ≤ (dealt n k' 0 xs).length + 1 := by
  rw [length_dealt_le_iff hk]
  have hother : xs.length ≤ k' + (dealt n k' 0 xs).length * n :=
    (length_dealt_le_iff hk' _ xs).mp (Nat.le_refl _)
  calc xs.length ≤ k' + (dealt n k' 0 xs).length * n := hother
    _ ≤ n + (dealt n k' 0 xs).length * n := by omega
    _ = ((dealt n k' 0 xs).length + 1) * n := by rw [Nat.succ_mul, Nat.add_comm]
    _ ≤ k + ((dealt n k' 0 xs).length + 1) * n := Nat.le_add_left _ _

/-- Each item falls to one place. -/
theorem sum_length_dealt (hn : 0 < n) (m : Nat) (xs : List α) :
    ∑ k ∈ Finset.range n, (dealt n k m xs).length = xs.length := by
  induction xs generalizing m with
  | nil => simp
  | cons x xs ih =>
    have hone : ∀ k, (dealt n k m (x :: xs)).length =
        (if m % n = k then 1 else 0) + (dealt n k (m + 1) xs).length := by
      intro k
      rw [dealt_cons]
      split
      · rw [List.length_cons, Nat.add_comm]
      · rw [Nat.zero_add]
    have hplace : m % n ∈ Finset.range n := Finset.mem_range.mpr (Nat.mod_lt m hn)
    simp only [hone]
    rw [Finset.sum_add_distrib, ih, Finset.sum_ite_eq, if_pos hplace, List.length_cons,
      Nat.add_comm]

/-! ## Taking in turn -/

/-- What comes of taking one item from each list in turn, until the list whose turn it is has
none. -/
def inTurn : List (List α) → List α
  | [] => []
  | [] :: _ => []
  | (x :: q) :: qs => x :: inTurn (qs ++ [q])
termination_by qs => (qs.map List.length).sum
decreasing_by
  simp only [List.map_append, List.map_cons, List.map_nil, List.sum_append, List.sum_cons,
    List.sum_nil, List.length_cons]
  omega

/-- What has been dealt to the places, that of the place whose turn it is first. -/
def dealtFrom (n m : Nat) (xs : List α) : List (List α) :=
  (List.range n).map fun i => dealt n ((m + i) % n) m xs

/-- Until it is its turn again, a place gets nothing. -/
theorem mod_ne_mod_add {i : Nat} (hpos : 0 < i) (hi : i < n) (m : Nat) : m % n ≠ (m + i) % n := by
  have hlt : m % n < n := Nat.mod_lt m (by omega)
  rw [← Nat.mod_add_mod m n i]
  by_cases hround : m % n + i < n
  · rw [Nat.mod_eq_of_lt hround]
    omega
  · have hback : (m % n + i) % n = m % n + i - n := by
      rw [Nat.mod_eq_sub_mod (Nat.le_of_not_lt hround)]
      exact Nat.mod_eq_of_lt (by omega)
    rw [hback]
    omega

/-- The first item is taken from the place whose turn it is, and then it is the next one's turn. -/
theorem dealtFrom_cons (hn : 0 < n) (m : Nat) (x : α) (xs : List α) :
    ∃ q qs, dealtFrom n m (x :: xs) = (x :: q) :: qs ∧ qs ++ [q] = dealtFrom n (m + 1) xs := by
  obtain ⟨n, rfl⟩ : ∃ n', n = n' + 1 := ⟨n - 1, by omega⟩
  refine ⟨dealt (n + 1) (m % (n + 1)) (m + 1) xs,
    (List.range n).map fun i => dealt (n + 1) ((m + (i + 1)) % (n + 1)) m (x :: xs), ?_, ?_⟩
  · have hself : dealt (n + 1) ((m + 0) % (n + 1)) m (x :: xs) =
        x :: dealt (n + 1) (m % (n + 1)) (m + 1) xs := dealt_cons_self rfl
    rw [dealtFrom, List.range_succ_eq_map, List.map_cons, List.map_map, hself]
    rfl
  · have hothers :
        (List.range n).map (fun i => dealt (n + 1) ((m + (i + 1)) % (n + 1)) m (x :: xs)) =
        (List.range n).map fun i => dealt (n + 1) ((m + 1 + i) % (n + 1)) (m + 1) xs := by
      refine List.map_congr_left fun i hi => ?_
      have hlt : i < n := List.mem_range.mp hi
      have hne : m % (n + 1) ≠ (m + (i + 1)) % (n + 1) := mod_ne_mod_add (by omega) (by omega) m
      rw [dealt_cons_of_ne hne, Nat.add_comm i 1, Nat.add_assoc]
    have hlast : (m + 1 + n) % (n + 1) = m % (n + 1) := by
      rw [Nat.add_assoc, Nat.add_comm 1 n, Nat.add_mod_right]
    rw [hothers, dealtFrom, List.range_succ, List.map_append, List.map_singleton, hlast]

/-- Taking one of each share in turn gives back what was dealt. -/
theorem inTurn_dealtFrom (hn : 0 < n) (m : Nat) (xs : List α) :
    inTurn (dealtFrom n m xs) = xs := by
  induction xs generalizing m with
  | nil =>
    obtain ⟨n, rfl⟩ : ∃ n', n = n' + 1 := ⟨n - 1, by omega⟩
    rw [dealtFrom, List.range_succ_eq_map, List.map_cons, dealt_nil, inTurn]
  | cons x xs ih =>
    obtain ⟨q, qs, hfirst, hrest⟩ := dealtFrom_cons hn m x xs
    rw [hfirst, inTurn, hrest, ih]

/-- Who takes one item from each place in turn gets the items in their order. -/
theorem inTurn_dealt (hn : 0 < n) (xs : List α) :
    inTurn ((List.range n).map fun k => dealt n k 0 xs) = xs := by
  have hplaces : (List.range n).map (fun k => dealt n k 0 xs) = dealtFrom n 0 xs := by
    refine List.map_congr_left fun k hk => ?_
    rw [Nat.zero_add, Nat.mod_eq_of_lt (List.mem_range.mp hk)]
  rw [hplaces, inTurn_dealtFrom hn]

end LineQuery.Pool
