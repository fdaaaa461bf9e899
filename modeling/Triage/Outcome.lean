/-!
# Outcomes

How a computation ends that may be broken off.
-/

namespace Triage

/-- How a computation ended: with its value, or broken off. -/
inductive Outcome (α : Type)
  | returned (a : α)
  | panicked
deriving DecidableEq

namespace Outcome

variable {α β : Type}

/-- The outcome with its value changed by `f`. -/
def map (f : α → β) : Outcome α → Outcome β
  | .returned a => .returned (f a)
  | .panicked => .panicked

end Outcome

end Triage
