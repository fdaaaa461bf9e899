import Triage.Service.Mutation
import Triage.Service.Request

/-!
# Reading

Calls that change nothing.  Documents, searches and counts come from the index, changelogs from
the store.
-/

namespace Triage

namespace Service

/-- The indexed document of an issue. -/
def getByKey (key : IssueKey) : Attempt IssueDoc := do
  .found (← .index (.get key)) (.unknownIssue key)

/-- The facet of a name. -/
def facetNamed (name : String) : Except ServiceError FacetField :=
  ((Label.parse name).mapError fun _ => .unknownFacet name)

/-- A page of the issues that a query accepts. -/
def search (limits : ServiceLimits) (query : IssueQuery) (c : QueryContext) :
    Attempt SearchResult := do
  let facets ← .ofExcept (c.facets.mapM facetNamed)
  .index (.search ⟨query, facets, c.offset, limits.pageSize c.limit, c.sort⟩)

/-- The transitions that the indexed issue allows. -/
def listTransitions (key : IssueKey) : Attempt (List Transition) := do
  let doc ← getByKey key
  return Workflow.offered ⟨doc.status, doc.resolution⟩

/-- The most frequent tags that contain a text; none if the size is not above zero. -/
def listTags (substring : Option String) (size : Int64) : Attempt (List String) :=
  if 0 < size.toInt then .index (.listTags substring size.toInt.toNat) else return []

/-- The query for the issues of a component, which for the root of a project are all of it. -/
def componentQuery (key : ComponentKey) (createdAfter : Option Timestamp) :
    Attempt IssueQuery := do
  let component ← .found (← .catalog (.component key)) (.unknownComponent key)
  if component.isProject then
    return { projectUuids := [component.projectUuid], createdAfter := createdAfter }
  else return { componentKeys := [component.key], createdAfter := createdAfter }

/-- The counts of the rules in a facet, with the names of those that are known. -/
def nameRules : List FacetValue → Attempt (List RuleCount)
  | [] => return []
  | ⟨none, _⟩ :: buckets => nameRules buckets
  | ⟨some text, count⟩ :: buckets => do
    let rule ← .catalog (.rule ⟨text⟩)
    return ⟨⟨text⟩, rule.map (·.name), count⟩ :: (← nameRules buckets)

/-- How many issues of a component each rule has. -/
def rulesByComponent (key : ComponentKey) (createdAfter : Option Timestamp) :
    Attempt (List RuleCount) := do
  let query ← componentQuery key createdAfter
  let counts ← .index (.facet query .rules)
  nameRules counts.buckets

/-- How many issues of a component each severity has. -/
def severitiesByComponent (key : ComponentKey) (createdAfter : Option Timestamp) :
    Attempt FacetCounts := do
  let query ← componentQuery key createdAfter
  .index (.facet query .severities)

/-- How many issues each assignee has. -/
def assignees (query : IssueQuery) : Attempt FacetCounts := .index (.facet query .assignees)

/-- The changelog of a stored issue, the oldest entry first. -/
def changelog (key : IssueKey) : Attempt (List IssueChange) := do
  let _ ← loadIssue key
  .store (.selectChanges key)

end Service

end Triage
