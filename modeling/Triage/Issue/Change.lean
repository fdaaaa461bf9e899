import Triage.Issue.Basic

/-!
# Changelog

Which tracked fields a change of an issue touched, with their values before and after as text.
-/

namespace Triage

/-- One changed field, with its text before and after; absent values have none. -/
structure FieldDiff where
  field : String
  oldValue : Option String
  newValue : Option String
deriving DecidableEq, Repr

/-- An entry of an issue's changelog. -/
structure IssueChange where
  issueKey : IssueKey
  user : Login
  createdAt : Timestamp
  diffs : List FieldDiff
deriving DecidableEq

/-- A field whose changes are recorded. -/
inductive TrackedField
  | status
  | resolution
  | assignee
  | actionPlan
  | severity
  | tags
deriving DecidableEq, Repr

namespace TrackedField

/-- Every tracked field, in the order in which an entry lists them. -/
def all : List TrackedField := [.status, .resolution, .assignee, .actionPlan, .severity, .tags]

/-- The name of the field in the changelog. -/
def name : TrackedField → String
  | .status => "status"
  | .resolution => "resolution"
  | .assignee => "assignee"
  | .actionPlan => "actionPlan"
  | .severity => "severity"
  | .tags => "tags"

/-- The tags separated by single spaces; no tags have no text. -/
def tagText (tags : TextSet) : Option String :=
  if tags.toList.isEmpty then none else some (" ".intercalate tags.toList)

/-- The text of the field's value. -/
def render (f : TrackedField) (i : Issue) : Option String :=
  match f with
  | .status => some (label i.status)
  | .resolution => i.resolution.map label
  | .assignee => i.assignee.map (·.text)
  | .actionPlan => i.actionPlanKey.map (·.text)
  | .severity => some (label i.severity)
  | .tags => tagText i.tags

/-- The difference in one field, if its text changed. -/
def diff? (f : TrackedField) (before after : Issue) : Option FieldDiff :=
  if f.render before = f.render after then none
  else some ⟨f.name, f.render before, f.render after⟩

end TrackedField

/-- The tracked fields whose text differs between the two issues. -/
def Issue.diffs (before after : Issue) : List FieldDiff :=
  TrackedField.all.filterMap fun f => f.diff? before after

end Triage
