import Triage.Issue.Basic

/-!
# Queries

Filters over issue documents.  An empty list filters nothing; a list with members keeps the
documents that have one of them.
-/

namespace Triage

/-- A conjunction of filters. -/
structure IssueQuery where
  projectUuids : List ProjectUuid := []
  componentKeys : List ComponentKey := []
  componentUuids : List ComponentUuid := []
  rules : List RuleKey := []
  severities : List Severity := []
  statuses : List Status := []
  resolutions : List Resolution := []
  assignees : List Login := []
  tags : List String := []
  actionPlans : List ActionPlanKey := []
  assigned : Option Bool := none
  planned : Option Bool := none
  resolved : Option Bool := none
  createdAfter : Option Timestamp := none
deriving DecidableEq

namespace IssueQuery

/-- Whether `value` passes the filter. -/
def oneOf {α : Type} [BEq α] (filter : List α) (value : α) : Bool :=
  filter.isEmpty || filter.contains value

/-- Whether a value that may be absent passes the filter; absent values pass the empty one only. -/
def someOneOf {α : Type} [BEq α] (filter : List α) (value : Option α) : Bool :=
  filter.isEmpty || value.any filter.contains

/-- Whether the flag asks for nothing or for `actual`. -/
def flagAllows (flag : Option Bool) (actual : Bool) : Bool := flag.all (· == actual)

/-- Whether the document passes every filter. -/
def accepts (q : IssueQuery) (d : IssueDoc) : Bool :=
  oneOf q.projectUuids d.projectUuid
    && oneOf q.componentKeys d.componentKey
    && oneOf q.componentUuids d.componentUuid
    && oneOf q.rules d.ruleKey
    && oneOf q.severities d.severity
    && oneOf q.statuses d.status
    && someOneOf q.resolutions d.resolution
    && someOneOf q.assignees d.assignee
    && someOneOf q.actionPlans d.actionPlanKey
    && (q.tags.isEmpty || q.tags.any d.tags.contains)
    && flagAllows q.assigned d.assignee.isSome
    && flagAllows q.planned d.actionPlanKey.isSome
    && flagAllows q.resolved d.isResolved
    && q.createdAfter.all (· < d.createdAt)

end IssueQuery

end Triage
