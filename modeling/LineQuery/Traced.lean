/-!
# Results with warnings

A computation that may fail and may give warnings on the way. What was warned about before
a failure stays warned about.
-/

namespace LineQuery

/-- A result, and the warnings given on the way to it in their order. -/
structure Traced (ε α : Type) where
  warnings : List String
  result : Except ε α

namespace Traced

variable {ε α β : Type}

/-- A result without warnings. -/
def of (result : Except ε α) : Traced ε α :=
  ⟨[], result⟩

/-- A failure without warnings. -/
def fail (e : ε) : Traced ε α :=
  of (.error e)

/-- What `next` makes of a value, behind the warnings given for the value. -/
def bind (x : Traced ε α) (next : α → Traced ε β) : Traced ε β :=
  match x.result with
  | .ok a => ⟨x.warnings ++ (next a).warnings, (next a).result⟩
  | .error e => ⟨x.warnings, .error e⟩

instance : Monad (Traced ε) where
  pure a := of (.ok a)
  bind := bind

end Traced

end LineQuery
