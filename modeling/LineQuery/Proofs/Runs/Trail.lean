import LineQuery.Plan.Run

/-! # Trails

What a run brings, seen as a whole: values one after another, and then an end or a failure.
The clauses of a query turn one trail into another. Nothing here is evaluated step by step;
that a run which reads its input bit by bit brings the same is what remains to be shown.
-/

namespace LineQuery

/-- Values one after another, and then an end or a failure. -/
inductive Trail (ε α : Type) where
  | done
  | fail (e : ε)
  | cons (a : α) (rest : Trail ε α)

namespace Trail

variable {ε ε' α β γ : Type}

def ofList : List α → Trail ε α
  | [] => done
  | a :: as => cons a (ofList as)

def append : Trail ε α → Trail ε α → Trail ε α
  | done, t => t
  | fail e, _ => fail e
  | cons a s, t => cons a (append s t)

instance : Append (Trail ε α) := ⟨append⟩

/-- What comes of each value, one after another. -/
def bind : Trail ε α → (α → Trail ε β) → Trail ε β
  | done, _ => done
  | fail e, _ => fail e
  | cons a t, f => f a ++ bind t f

def take : Nat → Trail ε α → Trail ε α
  | 0, _ => done
  | _ + 1, done => done
  | _ + 1, fail e => fail e
  | n + 1, cons a t => cons a (take n t)

def drop : Nat → Trail ε α → Trail ε α
  | 0, t => t
  | _ + 1, done => done
  | _ + 1, fail e => fail e
  | n + 1, cons _ t => drop n t

/-- A trail that depends on a number which its first value determines. -/
def counted (f : Nat → Trail ε α → Trail ε α) (count : α → Except ε Nat) :
    Trail ε α → Trail ε α
  | done => done
  | fail e => fail e
  | cons a t =>
    match count a with
    | .ok n => f n (cons a t)
    | .error e => fail e

def toList : Trail ε α → List (Except ε α)
  | done => []
  | fail e => [.error e]
  | cons a t => .ok a :: toList t

/-- What comes of a result. -/
def ofExcept (x : Except ε α) (f : α → Trail ε β) : Trail ε β :=
  match x with
  | .ok a => f a
  | .error e => fail e

@[simp] theorem done_append (t : Trail ε α) : done ++ t = t := rfl

@[simp] theorem cons_append (a : α) (s t : Trail ε α) : cons a s ++ t = cons a (s ++ t) := rfl

theorem append_assoc : ∀ r s t : Trail ε α, r ++ s ++ t = r ++ (s ++ t)
  | done, _, _ => rfl
  | fail _, _, _ => rfl
  | cons a r, s, t => congrArg (cons a) (append_assoc r s t)

theorem ofList_append : ∀ as bs : List α,
    (ofList (as ++ bs) : Trail ε α) = ofList as ++ ofList bs
  | [], _ => rfl
  | a :: as, bs => congrArg (cons a) (ofList_append as bs)

@[simp] theorem bind_cons (a : α) (t : Trail ε α) (f : α → Trail ε β) :
    bind (cons a t) f = f a ++ bind t f := rfl

@[simp] theorem drop_zero (t : Trail ε α) : drop 0 t = t := rfl

/-! ## More behind a trail -/

def values : Trail ε α → List α
  | done => []
  | fail _ => []
  | cons a t => a :: values t

/-- The first values of a trail do not depend on what comes behind them. -/
theorem take_append : ∀ {n : Nat} {s : Trail ε α} (t : Trail ε α), n ≤ s.values.length →
    (s ++ t).take n = s.take n
  | 0, _, _, _ => by simp only [take]
  | n + 1, .cons a s, t, h =>
    congrArg (cons a) (take_append t (Nat.le_of_succ_le_succ h))

/-- Rows are replaced by their rows one after another. -/
theorem bind_append (f : α → Trail ε β) : ∀ s t : Trail ε α,
    (s ++ t).bind f = s.bind f ++ t.bind f
  | done, _ => rfl
  | fail _, _ => rfl
  | cons a s, t => by
    rw [cons_append, bind_cons, bind_cons, bind_append f s t, append_assoc]

/-- What is taken from a longer trail starts with what is taken from its front. -/
theorem exists_take_append : ∀ (n : Nat) (s t : Trail ε α),
    ∃ u, (s ++ t).take n = s.take n ++ u
  | 0, _, _ => ⟨done, by simp only [take]; rfl⟩
  | n + 1, done, t => ⟨t.take (n + 1), rfl⟩
  | n + 1, fail e, t => ⟨t, rfl⟩
  | n + 1, cons a s, t => by
    obtain ⟨u, hu⟩ := exists_take_append n s t
    exact ⟨u, congrArg (cons a) hu⟩

/-- What is dropped from a longer trail is dropped from its front. -/
theorem exists_drop_append : ∀ (n : Nat) (s t : Trail ε α),
    ∃ u, (s ++ t).drop n = s.drop n ++ u
  | 0, _, t => ⟨t, rfl⟩
  | n + 1, done, t => ⟨t.drop (n + 1), rfl⟩
  | _ + 1, fail _, t => ⟨t, rfl⟩
  | n + 1, cons _ s, t => exists_drop_append n s t

/-- A trail that a count cuts is cut alike if more comes behind it. -/
theorem exists_counted_append {f : Nat → Trail ε α → Trail ε α}
    (hf : ∀ n s t, ∃ u, f n (s ++ t) = f n s ++ u) (count : α → Except ε Nat) :
    ∀ s t : Trail ε α, ∃ u, (s ++ t).counted f count = s.counted f count ++ u
  | done, t => ⟨t.counted f count, rfl⟩
  | fail e, t => ⟨t, rfl⟩
  | cons a s, t => by
    rw [cons_append, counted, counted]
    cases count a with
    | ok n => exact hf n (cons a s) t
    | error e => exact ⟨t, rfl⟩

/-! ## Trails of related values -/

/-- Trails of the same length with related values and related failures. -/
inductive Related (E : ε → ε' → Prop) (R : α → β → Prop) : Trail ε α → Trail ε' β → Prop where
  | done : Related E R done done
  | fail {e e'} : E e e' → Related E R (fail e) (fail e')
  | cons {a b s t} : R a b → Related E R s t → Related E R (cons a s) (cons b t)

namespace Related

variable {α' β' : Type} {E : ε → ε' → Prop} {R : α → β → Prop} {R' : α' → β' → Prop}

theorem append {s s' : Trail ε α} {t t' : Trail ε' β} (h : Related E R s t)
    (h' : Related E R s' t') : Related E R (s ++ s') (t ++ t') := by
  induction h with
  | done => exact h'
  | fail he => exact .fail he
  | cons hab _ ih => exact .cons hab ih

/-- Related rows are replaced by related trails. -/
theorem bind {s : Trail ε α} {t : Trail ε' β} {f : α → Trail ε α'} {g : β → Trail ε' β'}
    (h : Related E R s t) (hf : ∀ a b, R a b → Related E R' (f a) (g b)) :
    Related E R' (s.bind f) (t.bind g) := by
  induction h with
  | done => exact .done
  | fail he => exact .fail he
  | cons hab _ ih => exact (hf _ _ hab).append ih

theorem take {s : Trail ε α} {t : Trail ε' β} (h : Related E R s t) (n : Nat) :
    Related E R (s.take n) (t.take n) := by
  induction h generalizing n with
  | done => cases n <;> exact .done
  | fail he =>
    cases n with
    | zero => exact .done
    | succ n => exact .fail he
  | cons hab _ ih =>
    cases n with
    | zero => exact .done
    | succ n => exact .cons hab (ih n)

theorem drop {s : Trail ε α} {t : Trail ε' β} (h : Related E R s t) (n : Nat) :
    Related E R (s.drop n) (t.drop n) := by
  induction h generalizing n with
  | done => cases n <;> exact .done
  | fail he => cases n <;> exact .fail he
  | cons hab hst ih =>
    cases n with
    | zero => exact .cons hab hst
    | succ n => exact ih n

theorem ofList_map {R : α' → β' → Prop} {f : α → α'} {g : α → β'} {xs : List α}
    (h : ∀ x ∈ xs, R (f x) (g x)) : Related E R (ofList (xs.map f)) (ofList (xs.map g)) := by
  induction xs with
  | nil => exact .done
  | cons x xs ih =>
    obtain ⟨hx, hxs⟩ := List.forall_mem_cons.mp h
    exact .cons hx (ih hxs)

end Related

/-- Nothing stands behind the failure of a trail. -/
theorem getElem?_toList_of_error : ∀ {t : Trail ε α} {j k : Nat} {e : ε},
    t.toList[j]? = some (.error e) → j < k → t.toList[k]? = none
  | done, j, k, e, h, _ => absurd h (by simp [toList])
  | fail e', 0, k + 1, e, _, _ => by simp [toList]
  | fail e', j + 1, k, e, h, _ => absurd h (by simp [toList])
  | cons a t, 0, k, e, h, _ => absurd h (by simp [toList])
  | cons a t, j + 1, k + 1, e, h, hlt => by
    rw [toList, List.getElem?_cons_succ] at h ⊢
    exact getElem?_toList_of_error h (Nat.lt_of_succ_lt_succ hlt)

end Trail

end LineQuery
