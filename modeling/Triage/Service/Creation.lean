import Triage.Service.Mutation
import Triage.Service.Request
import Triage.Text.Blank

/-!
# Issues created by hand

A manual issue is raised on a component under a manual rule.  All fields are checked before the
row is stored under a fresh key.
-/

namespace Triage

namespace ManualIssueRequest

/-- The line to store: absent, or one that fits a row. -/
def storedLine? (q : ManualIssueRequest) : Option (Option UInt32) :=
  match q.line with
  | none => some none
  | some n =>
    if 1 ≤ n.toInt ∧ n.toInt < Int.pow 2 32 then some (some (UInt32.ofNat n.toInt.toNat)) else none

/-- The error of the line. -/
def lineError? (q : ManualIssueRequest) : Option FieldError :=
  match q.storedLine? with
  | some _ => none
  | none => q.line.map .line

/-- The error of the effort, which must be a number from zero up. -/
def effortError? (q : ManualIssueRequest) : Option FieldError :=
  (q.effortToFix.filter fun x => !x.isFinite || x.belowZero).map .effort

/-- The error of the message, whose length is limited. -/
def messageError? (q : ManualIssueRequest) (max : Nat) : Option FieldError :=
  (q.message.filter fun m => max < m.length).map fun _ => .message max

/-- The errors of the fields. -/
def fieldErrors (q : ManualIssueRequest) (limits : ServiceLimits) : List FieldError :=
  [q.lineError?, q.effortError?, q.messageError? limits.maxMessageLength].filterMap id

/-- The issue to store: a message that is missing or blank becomes the name of the rule. -/
def issue (q : ManualIssueRequest) (key : IssueKey) (component : Component) (rule : Rule)
    (reporter : Login) : Issue :=
  { Issue.fresh key rule.key component with
    severity := q.severity.getD .major
    message := some ((q.message.filter fun m => !Text.allBlank m).getD rule.name)
    line := q.storedLine?.join
    effortToFix := q.effortToFix
    reporter := some reporter }

end ManualIssueRequest

namespace Service

/-- Finds the rule of a manual issue. -/
def findManualRule (key : RuleKey) : Attempt Rule := do
  let rule ← .found (← .catalog (.rule key)) (.unknownRule key)
  if rule.manual then return rule else throw (.ruleNotManual rule.key)

/-- Finds the component of a manual issue and its project. -/
def findComponent (key : ComponentKey) : Attempt (Component × ProjectKey) := do
  let component ← .found (← .catalog (.component key)) (.unknownComponent key)
  return (component, ← findProject component.projectUuid)

/-- Stores and indexes a manual issue on a component, for a caller who must be permitted to. -/
def raiseIssue (limits : ServiceLimits) (principal : Principal) (q : ManualIssueRequest)
    (component : Component) (project : ProjectKey) : Attempt IssueDoc := do
  .authorize principal .createManualIssue project
  let rule ← findManualRule q.ruleKey
  let errors := q.fieldErrors limits
  unless errors.isEmpty do throw (.fields errors)
  let key ← .freshKey
  let rows ← .store (.insert [q.issue key component rule principal.login])
  let stored ← .found rows.head? .noRowReturned
  indexRow stored

/-- Creates a manual issue and answers its document. -/
def create (limits : ServiceLimits) (principal : Principal) (q : ManualIssueRequest) :
    Script (Except ServiceError IssueDoc) := do
  let mutated ← inProject (findComponent q.componentKey) (raiseIssue limits principal q)
  let key := mutated.result.toOption.map (·.key)
  .single (.record (mutationEvent .createManualIssue key principal mutated))
  return mutated.result

end Service

end Triage
