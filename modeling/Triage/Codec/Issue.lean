import Triage.Codec.Basic
import Triage.Issue.Change
import Triage.Workflow

/-!
# JSON forms of issues

Rows, documents, workflow states and changelog entries.
-/

namespace Triage

instance : JsonForm Severity := .ofLabels _

instance : JsonForm Status := .ofLabels _

instance : JsonForm Resolution := .ofLabels _

instance : JsonForm Transition := .ofLabels _

/-- The names of the fields of an issue. -/
def IssueFields.shape : RecordShape := .ofFields
  ["key", "rule_key", "severity", "component_key", "component_uuid", "project_uuid", "line",
    "effort_to_fix", "status", "resolution", "assignee", "action_plan_key", "tags", "message",
    "reporter", "created_at", "updated_at"]

/-- The issue as an object. -/
def IssueFields.json (f : IssueFields) : Json :=
  .record [
    ("key", toJson f.key),
    ("rule_key", toJson f.ruleKey),
    ("severity", toJson f.severity),
    ("component_key", toJson f.componentKey),
    ("component_uuid", toJson f.componentUuid),
    ("project_uuid", toJson f.projectUuid),
    ("line", toJson f.line),
    ("effort_to_fix", toJson f.effortToFix),
    ("status", toJson f.status),
    ("resolution", toJson f.resolution),
    ("assignee", toJson f.assignee),
    ("action_plan_key", toJson f.actionPlanKey),
    ("tags", toJson f.tags),
    ("message", toJson f.message),
    ("reporter", toJson f.reporter),
    ("created_at", toJson f.createdAt),
    ("updated_at", toJson f.updatedAt)]

/-- The issue that a record holds. -/
def IssueFields.ofRecord? (r : Record Json) : Option IssueFields := do
  return {
    key := ← r.field "key"
    ruleKey := ← r.field "rule_key"
    severity := ← r.field "severity"
    componentKey := ← r.field "component_key"
    componentUuid := ← r.field "component_uuid"
    projectUuid := ← r.field "project_uuid"
    line := ← r.optionalField "line"
    effortToFix := ← r.optionalField "effort_to_fix"
    status := ← r.field "status"
    resolution := ← r.optionalField "resolution"
    assignee := ← r.optionalField "assignee"
    actionPlanKey := ← r.optionalField "action_plan_key"
    tags := ← r.field "tags"
    message := ← r.optionalField "message"
    reporter := ← r.optionalField "reporter"
    createdAt := ← r.field "created_at"
    updatedAt := ← r.field "updated_at" }

instance : JsonForm IssueFields where
  toJson := IssueFields.json
  ofJson? j := (j.record? IssueFields.shape).bind IssueFields.ofRecord?

instance : JsonForm Issue where
  toJson i := toJson i.toIssueFields
  ofJson? j := (JsonForm.ofJson? j).map Issue.mk

instance : JsonForm IssueDoc where
  toJson d := toJson d.toIssueFields
  ofJson? j := (JsonForm.ofJson? j).map IssueDoc.mk

instance : JsonForm Workflow.State where
  toJson s := .record [("status", toJson s.status), ("resolution", toJson s.resolution)]
  ofJson? j := do
    let r ← j.record? (.ofFields ["status", "resolution"])
    return ⟨← r.field "status", ← r.optionalField "resolution"⟩

instance : JsonForm FieldDiff where
  toJson d := .record [
    ("field", toJson d.field),
    ("old_value", toJson d.oldValue),
    ("new_value", toJson d.newValue)]
  ofJson? j := do
    let r ← j.record? (.ofFields ["field", "old_value", "new_value"])
    return ⟨← r.field "field", ← r.optionalField "old_value", ← r.optionalField "new_value"⟩

instance : JsonForm IssueChange where
  toJson c := .record [
    ("issue_key", toJson c.issueKey),
    ("user", toJson c.user),
    ("created_at", toJson c.createdAt),
    ("diffs", toJson c.diffs)]
  ofJson? j := do
    let r ← j.record? (.ofFields ["issue_key", "user", "created_at", "diffs"])
    return ⟨← r.field "issue_key", ← r.field "user", ← r.field "created_at", ← r.field "diffs"⟩

end Triage
