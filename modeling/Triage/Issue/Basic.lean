import Triage.Binary64
import Triage.Catalog
import Triage.Issue.Severity
import Triage.TextSet
import Triage.Timestamp

/-!
# Issues

The row that the store keeps and the document that the search index keeps.  Both hold the same
seventeen fields.
-/

namespace Triage

/-- The fields of an issue. -/
structure IssueFields where
  key : IssueKey
  ruleKey : RuleKey
  severity : Severity
  componentKey : ComponentKey
  componentUuid : ComponentUuid
  projectUuid : ProjectUuid
  line : Option UInt32
  effortToFix : Option Binary64
  status : Status
  resolution : Option Resolution
  assignee : Option Login
  actionPlanKey : Option ActionPlanKey
  tags : TextSet
  message : Option String
  reporter : Option Login
  createdAt : Timestamp
  updatedAt : Timestamp
deriving DecidableEq

namespace IssueFields

/-- Whether the issue has a resolution that settles it. -/
def isResolved (f : IssueFields) : Bool := f.resolution.any Resolution.isResolved

/-- Whether the efforts are the same number, or both absent. -/
def sameEffort : Option Binary64 → Option Binary64 → Bool
  | none, none => true
  | some a, some b => a.agrees b
  | _, _ => false

/-- Whether all fields agree, the effort compared as a number. -/
def agrees (f g : IssueFields) : Bool :=
  sameEffort f.effortToFix g.effortToFix && { f with effortToFix := g.effortToFix } = g

end IssueFields

/-- An issue as the store keeps it. -/
structure Issue extends IssueFields
deriving DecidableEq

/-- An issue as the search index keeps it. -/
structure IssueDoc extends IssueFields
deriving DecidableEq

/-- The document that shows the row. -/
def Issue.doc (i : Issue) : IssueDoc := ⟨i.toIssueFields⟩

/-- An open issue on a component, with nothing but its place and rule filled in. -/
def Issue.fresh (key : IssueKey) (rule : RuleKey) (component : Component) : Issue where
  key := key
  ruleKey := rule
  severity := .major
  componentKey := component.key
  componentUuid := component.uuid
  projectUuid := component.projectUuid
  line := none
  effortToFix := none
  status := .opened
  resolution := none
  assignee := none
  actionPlanKey := none
  tags := ∅
  message := none
  reporter := none
  createdAt := ⟨0⟩
  updatedAt := ⟨0⟩

end Triage
