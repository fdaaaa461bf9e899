import Triage.Label

/-!
# Severity, status and resolution

The three closed vocabularies of an issue row.
-/

namespace Triage

/-- How bad an issue is. -/
inductive Severity
  | info
  | minor
  | major
  | critical
  | blocker
deriving DecidableEq, Repr, Inhabited

instance : Label Severity where
  noun := "severity"
  all := [.info, .minor, .major, .critical, .blocker]
  label
    | .info => "INFO"
    | .minor => "MINOR"
    | .major => "MAJOR"
    | .critical => "CRITICAL"
    | .blocker => "BLOCKER"

theorem Severity.ofLabel?_label (s : Severity) : Label.ofLabel? (label s) = some s := by
  cases s <;> rfl

/-- The place of a severity on the scale, the least bad at 0. -/
def Severity.rank : Severity → Nat
  | .info => 0
  | .minor => 1
  | .major => 2
  | .critical => 3
  | .blocker => 4

/-- Where an issue stands in its life. -/
inductive Status
  | opened
  | confirmed
  | reopened
  | resolved
  | closed
deriving DecidableEq, Repr, Inhabited

instance : Label Status where
  noun := "status"
  all := [.opened, .confirmed, .reopened, .resolved, .closed]
  label
    | .opened => "OPEN"
    | .confirmed => "CONFIRMED"
    | .reopened => "REOPENED"
    | .resolved => "RESOLVED"
    | .closed => "CLOSED"

theorem Status.ofLabel?_label (s : Status) : Label.ofLabel? (label s) = some s := by
  cases s <;> rfl

/-- Every status, in the order of an issue's life. -/
def Status.list : List Status := Label.all

/-- How an issue was settled. -/
inductive Resolution
  | fixed
  | falsePositive
  | removed
  | wontFix
  | unresolved
deriving DecidableEq, Repr, Inhabited

instance : Label Resolution where
  noun := "resolution"
  all := [.fixed, .falsePositive, .removed, .wontFix, .unresolved]
  label
    | .fixed => "FIXED"
    | .falsePositive => "FALSE-POSITIVE"
    | .removed => "REMOVED"
    | .wontFix => "WONTFIX"
    | .unresolved => "NONE"

theorem Resolution.ofLabel?_label (r : Resolution) : Label.ofLabel? (label r) = some r := by
  cases r <;> rfl

/-- Whether the resolution settles the issue. -/
def Resolution.isResolved : Resolution → Bool
  | .unresolved => false
  | _ => true

end Triage
