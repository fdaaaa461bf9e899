import Triage.Outcome
import Triage.Service.World

/-!
# Running scripts

A script under way, step by step, so that several can take turns on one world; and the run of a
script by itself.
-/

namespace Triage

/-- A script under way: what is left of it, and the keys whose locks it holds. -/
structure Activity (α : Type) where
  script : Script α
  held : List IssueKey := []

namespace Activity

variable {α : Type}

/-- The keys whose locks are held after a step. -/
def heldAfter (held : List IssueKey) : (c : Call) → c.Answer → List IssueKey
  | .enter key, true => key :: held
  | .leave key, _ => held.erase key
  | _, _ => held

/-- The next step, if there is one. -/
def next? (a : Activity α) : Option Call :=
  match a.script with
  | .done _ => none
  | .ask c _ => some c

/-- Whether the next step has to wait for a lock. -/
def isWaiting (w : World) (a : Activity α) : Bool :=
  match a.next? with
  | some (.enter key) => w.locks.isHeld key
  | _ => false

/-- Takes the next step, disturbed as told. -/
def step (w : World) (f : Option Failure) (a : Activity α) :
    (Activity α ⊕ Outcome α) × World :=
  match a.script with
  | .done r => (.inr (.returned r), w)
  | .ask c next =>
    match w.respond f c with
    | (some r, w) => (.inl ⟨next r, heldAfter a.held c r⟩, w)
    | (none, w) => (.inr .panicked, w.abandon a.held)

end Activity

namespace Script

variable {α : Type}

/-- Runs a script that holds the locks of `held`; each step takes the first disturbance that is
left, and none once they are used up. -/
def runFrom (w : World) (held : List IssueKey) (fs : List (Option Failure)) :
    Script α → Outcome α × World
  | .done r => (.returned r, w)
  | .ask c next =>
    match w.respond (fs.head?.getD none) c with
    | (some r, w) => (next r).runFrom w (Activity.heldAfter held c r) fs.tail
    | (none, w) => (.panicked, w.abandon held)

/-- Runs a script by itself. -/
def run (w : World) (fs : List (Option Failure)) (s : Script α) : Outcome α × World :=
  s.runFrom w [] fs

end Script

end Triage
