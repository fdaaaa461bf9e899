import Triage.Issue.Basic

/-!
# Facets

How many documents have each value of a field.  The buckets of a facet stand in the order of
`FacetValue.before`: the fullest first, of equally full ones the absent value last and the others
by their text.
-/

namespace Triage

/-- A field that documents are counted by. -/
inductive FacetField
  | projects
  | components
  | rules
  | severities
  | statuses
  | resolutions
  | assignees
  | actionPlans
  | tags
deriving DecidableEq, Repr

instance : Label FacetField where
  noun := "facet"
  all := [.projects, .components, .rules, .severities, .statuses, .resolutions, .assignees,
    .actionPlans, .tags]
  label
    | .projects => "projectUuids"
    | .components => "componentUuids"
    | .rules => "rules"
    | .severities => "severities"
    | .statuses => "statuses"
    | .resolutions => "resolutions"
    | .assignees => "assignees"
    | .actionPlans => "actionPlans"
    | .tags => "tags"

/-- The values that a document adds to the facet: one for most fields, one per tag for the tags. -/
def FacetField.values : FacetField → IssueDoc → List (Option String)
  | .projects, d => [some d.projectUuid.text]
  | .components, d => [some d.componentUuid.text]
  | .rules, d => [some d.ruleKey.text]
  | .severities, d => [some (label d.severity)]
  | .statuses, d => [some (label d.status)]
  | .resolutions, d => [d.resolution.map label]
  | .assignees, d => [d.assignee.map (·.text)]
  | .actionPlans, d => [d.actionPlanKey.map (·.text)]
  | .tags, d => d.tags.toList.map some

/-- A value, or its absence, and how often it occurs. -/
structure FacetValue where
  value : Option String
  count : Nat
deriving DecidableEq, Repr

namespace FacetValue

/-- Whether the first value stands before the second: by text, the absent value last. -/
def valueBefore : Option String → Option String → Bool
  | some a, some b => a < b
  | some _, none => true
  | none, _ => false

/-- Whether the first bucket stands before the second. -/
def before (a b : FacetValue) : Bool :=
  b.count < a.count || a.count == b.count && valueBefore a.value b.value

end FacetValue

/-- The buckets of a facet. -/
structure FacetCounts where
  buckets : List FacetValue := []
deriving DecidableEq, Repr, Inhabited

namespace FacetCounts

/-- The buckets in their order. -/
def ofBuckets (bs : List FacetValue) : FacetCounts := ⟨bs.mergeSort fun a b => !b.before a⟩

/-- The facet of a list of values: each distinct value with the number of its occurrences. -/
def ofValues (vs : List (Option String)) : FacetCounts :=
  ofBuckets (vs.eraseDups.map fun v => ⟨v, vs.count v⟩)

/-- The facet of the given counts; of two counts for one value the later one stands. -/
def ofCounts (counts : List FacetValue) : FacetCounts :=
  ofBuckets (counts.foldl (fun bs b => bs.filter (·.value ≠ b.value) ++ [b]) [])

/-- The facet of a list of documents. -/
def aggregate (field : FacetField) (docs : List IssueDoc) : FacetCounts :=
  ofValues (docs.flatMap field.values)

/-- The values in the order of their buckets. -/
def keys (f : FacetCounts) : List (Option String) := f.buckets.map (·.value)

/-- The count of the first bucket for `v`, 0 if there is none. -/
def countOf (f : FacetCounts) (v : Option String) : Nat :=
  ((f.buckets.find? fun b => b.value = v).map (·.count)).getD 0

end FacetCounts

end Triage
