import Triage.Search.Facet
import Triage.Search.Query

/-!
# Search requests and results
-/

namespace Triage

/-- A field that hits are sorted by. -/
inductive SortField
  | createdAt
  | updatedAt
  | severity
deriving DecidableEq, Repr

instance : Label SortField where
  noun := "sort field"
  all := [.createdAt, .updatedAt, .severity]
  label
    | .createdAt => "created_at"
    | .updatedAt => "updated_at"
    | .severity => "severity"

/-- A sort field and its direction. -/
structure SortOrder where
  field : SortField
  ascending : Bool
deriving DecidableEq, Repr

/-- How a caller asks for a page: facets by name, and a limit that may be left open. -/
structure QueryContext where
  facets : List String := []
  offset : Nat := 0
  limit : Option Nat := none
  sort : Option SortOrder := none
deriving DecidableEq, Repr

/-- How the index is asked for a page. -/
structure SearchRequest where
  query : IssueQuery
  facets : List FacetField
  offset : Nat
  limit : Nat
  sort : Option SortOrder
deriving DecidableEq

/-- A page of hits, the number of all matches, and facets over all matches by name. -/
structure SearchResult where
  total : Nat
  hits : List IssueDoc
  facets : KeyMap .facet FacetCounts
deriving DecidableEq

namespace SearchResult

/-- The facet `name`, if it was asked for. -/
def facet? (r : SearchResult) (name : String) : Option FacetCounts := r.facets.get? ⟨name⟩

/-- The values of the facet `name`, none if it was not asked for. -/
def facetKeys (r : SearchResult) (name : String) : List (Option String) :=
  ((r.facet? name).map FacetCounts.keys).getD []

end SearchResult

end Triage
