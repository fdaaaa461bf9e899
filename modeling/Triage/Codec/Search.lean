import Triage.Codec.Issue
import Triage.Search.Index

/-!
# JSON forms of queries and search results
-/

namespace Triage

instance : JsonForm FacetField := .ofLabels _

instance : JsonForm SortField := .ofLabels _

instance : JsonForm SortOrder where
  toJson o := .record [("field", toJson o.field), ("ascending", toJson o.ascending)]
  ofJson? j := do
    let r ← j.record? (.ofFields ["field", "ascending"])
    return ⟨← r.field "field", ← r.field "ascending"⟩

instance : JsonForm IssueQuery where
  toJson q := .record [
    ("project_uuids", toJson q.projectUuids),
    ("component_keys", toJson q.componentKeys),
    ("component_uuids", toJson q.componentUuids),
    ("rules", toJson q.rules),
    ("severities", toJson q.severities),
    ("statuses", toJson q.statuses),
    ("resolutions", toJson q.resolutions),
    ("assignees", toJson q.assignees),
    ("tags", toJson q.tags),
    ("action_plans", toJson q.actionPlans),
    ("assigned", toJson q.assigned),
    ("planned", toJson q.planned),
    ("resolved", toJson q.resolved),
    ("created_after", toJson q.createdAfter)]
  ofJson? j := do
    let r ← j.record? (.ofFields
      ["project_uuids", "component_keys", "component_uuids", "rules", "severities", "statuses",
        "resolutions", "assignees", "tags", "action_plans", "assigned", "planned", "resolved",
        "created_after"])
    return {
      projectUuids := ← r.field "project_uuids"
      componentKeys := ← r.field "component_keys"
      componentUuids := ← r.field "component_uuids"
      rules := ← r.field "rules"
      severities := ← r.field "severities"
      statuses := ← r.field "statuses"
      resolutions := ← r.field "resolutions"
      assignees := ← r.field "assignees"
      tags := ← r.field "tags"
      actionPlans := ← r.field "action_plans"
      assigned := ← r.optionalField "assigned"
      planned := ← r.optionalField "planned"
      resolved := ← r.optionalField "resolved"
      createdAfter := ← r.optionalField "created_after" }

instance : JsonForm QueryContext where
  toJson c := .record [
    ("facets", toJson c.facets),
    ("offset", toJson c.offset),
    ("limit", toJson c.limit),
    ("sort", toJson c.sort)]
  ofJson? j := do
    let r ← j.record? (.ofFields ["facets", "offset", "limit", "sort"])
    return ⟨← r.field "facets", ← r.field "offset", ← r.optionalField "limit",
      ← r.optionalField "sort"⟩

instance : JsonForm FacetValue where
  toJson v := .record [("value", toJson v.value), ("count", toJson v.count)]
  ofJson? j := do
    let r ← j.record? (.ofFields ["value", "count"])
    return ⟨← r.optionalField "value", ← r.field "count"⟩

instance : JsonForm FacetCounts where
  toJson f := .record [("buckets", toJson f.buckets)]
  ofJson? j := do
    let r ← j.record? (.ofFields ["buckets"])
    return ⟨← r.field "buckets"⟩

instance : JsonForm SearchResult where
  toJson s := .record [
    ("total", toJson s.total), ("hits", toJson s.hits), ("facets", toJson s.facets)]
  ofJson? j := do
    let r ← j.record? (.ofFields ["total", "hits", "facets"])
    return ⟨← r.field "total", ← r.field "hits", ← r.field "facets"⟩

end Triage
