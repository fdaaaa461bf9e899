import Triage.Issue.Severity

/-!
# Workflow

The legal moves between statuses, and what each does to the resolution.
-/

namespace Triage

/-- A move in the life of an issue. -/
inductive Transition
  | confirm
  | unconfirm
  | resolve
  | reopen
  | falsePositive
  | wontFix
  | close
deriving DecidableEq, Repr

instance : Label Transition where
  noun := "transition"
  all := [.confirm, .unconfirm, .resolve, .reopen, .falsePositive, .wontFix, .close]
  label
    | .confirm => "confirm"
    | .unconfirm => "unconfirm"
    | .resolve => "resolve"
    | .reopen => "reopen"
    | .falsePositive => "falsepositive"
    | .wontFix => "wontfix"
    | .close => "close"
  sameSpelling := Label.sameLetters

namespace Workflow

/-- The part of an issue that transitions read and write. -/
structure State where
  status : Status
  resolution : Option Resolution
deriving DecidableEq, Repr

/-- What a transition does to the resolution. -/
inductive ResolutionEffect
  | clear
  | set (r : Resolution)
  | keep
deriving DecidableEq, Repr

/-- The resolution after the effect. -/
def ResolutionEffect.apply : ResolutionEffect → Option Resolution → Option Resolution
  | .clear, _ => none
  | .set r, _ => some r
  | .keep, old => old

/-- A row of the transition table. -/
structure Move where
  transition : Transition
  sources : List Status
  target : Status
  effect : ResolutionEffect
deriving DecidableEq, Repr

/-- The transition table, one row for each transition, in the order in which they are offered. -/
def table : List Move := [
  ⟨.confirm, [.opened, .reopened], .confirmed, .clear⟩,
  ⟨.unconfirm, [.confirmed], .reopened, .clear⟩,
  ⟨.resolve, [.opened, .reopened, .confirmed], .resolved, .set .fixed⟩,
  ⟨.reopen, [.resolved, .closed], .reopened, .clear⟩,
  ⟨.falsePositive, [.opened, .reopened, .confirmed], .resolved, .set .falsePositive⟩,
  ⟨.wontFix, [.opened, .reopened, .confirmed], .resolved, .set .wontFix⟩,
  ⟨.close, [.resolved], .closed, .keep⟩]

/-- A transition that the current status does not allow. -/
structure IllegalTransition where
  transition : Transition
  status : Status
deriving DecidableEq, Repr

/-- The text of the error. -/
def IllegalTransition.message (e : IllegalTransition) : String :=
  "transition '" ++ label e.transition ++ "' is not allowed from status " ++ label e.status

/-- The transitions that the state allows. -/
def offered (s : State) : List Transition :=
  (table.filter fun m => m.sources.contains s.status).map (·.transition)

/-- The state after a transition. -/
def apply (s : State) (t : Transition) : Except IllegalTransition State :=
  match table.find? fun m => m.transition = t && m.sources.contains s.status with
  | some m => .ok ⟨m.target, m.effect.apply s.resolution⟩
  | none => .error ⟨t, s.status⟩

end Workflow

end Triage
