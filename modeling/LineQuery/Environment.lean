/-!
# Environments

The variables that a process is given by the one that starts it.
-/

namespace LineQuery

/-- The environment variables of a run. -/
structure Environment where
  vars : List (String × String)
deriving DecidableEq, Repr

namespace Environment

def empty : Environment := ⟨[]⟩

/-- The value of a variable, unless it is empty. -/
def get? (env : Environment) (name : String) : Option String :=
  (env.vars.lookup name).filter fun value => !value.isEmpty

end Environment

end LineQuery
