import Triage.Proofs.Workflow
import Triage.Search.Index

/-!
# Filters for what is settled

A query may ask for issues that are resolved, or for the statuses that resolved issues have.  Where
status and resolution are in step, both filters keep the same documents, and so every listing, page
and facet is the same.
-/

namespace Triage

/-- The statuses of the issues that are resolved, or of those that are not. -/
def Status.ofResolved : Bool → List Status
  | true => settled
  | false => pending

/-- Whether status and resolution of the document are in step. -/
def IssueDoc.WellFormed (d : IssueDoc) : Prop := Workflow.State.WellFormed ⟨d.status, d.resolution⟩

namespace IssueQuery

variable {q : IssueQuery} {d : IssueDoc}

/-- Both filters say the same of a document in step. -/
theorem flagAllows_isResolved (hd : d.WellFormed) (resolved : Bool) :
    flagAllows (some resolved) d.isResolved = oneOf (Status.ofResolved resolved) d.status := by
  unfold IssueDoc.WellFormed at hd
  rw [IssueFields.isResolved]
  generalize d.status = status, d.resolution = resolution at hd
  cases hd with
  | pending h =>
    revert status
    cases resolved <;> decide
  | settled hr h =>
    rw [Option.any_some, Resolution.isResolved_iff.2 hr]
    revert status
    cases resolved <;> decide

/-- The query without its filters of the status and of being resolved. -/
def broadened (q : IssueQuery) : IssueQuery := { q with statuses := [], resolved := none }

theorem accepts_eq (q : IssueQuery) (d : IssueDoc) : q.accepts d =
    (q.broadened.accepts d &&
      (oneOf q.statuses d.status && flagAllows q.resolved d.isResolved)) := by
  simp only [accepts, broadened, oneOf, flagAllows, List.isEmpty_nil, Bool.true_or, Bool.and_true,
    Option.all_none]
  ac_rfl

/-- A document in step is accepted as resolved, or as not resolved, just if it is by its status. -/
theorem accepts_resolved_eq (hd : d.WellFormed) (hstatuses : q.statuses = [])
    (hresolved : q.resolved = none) (resolved : Bool) :
    { q with resolved := some resolved }.accepts d =
      { q with statuses := Status.ofResolved resolved }.accepts d := by
  rw [accepts_eq, accepts_eq { q with statuses := Status.ofResolved resolved }]
  change (q.broadened.accepts d &&
      (oneOf q.statuses d.status && flagAllows (some resolved) d.isResolved)) =
    (q.broadened.accepts d &&
      (oneOf (Status.ofResolved resolved) d.status && flagAllows q.resolved d.isResolved))
  rw [hstatuses, hresolved, flagAllows_isResolved hd]
  exact congrArg _ (Bool.and_comm _ _)

end IssueQuery

namespace Index

variable {x : Index} {q q' : IssueQuery}

/-- Queries that accept the same of the documents that are there find the same. -/
theorem search_congr (h : ∀ d ∈ x.docs.values, q.accepts d = q'.accepts d)
    (facets : List FacetField) (offset limit : Nat) (sort : Option SortOrder) :
    x.search ⟨q, facets, offset, limit, sort⟩ = x.search ⟨q', facets, offset, limit, sort⟩ := by
  have hmatching : x.matching q = x.matching q' := List.filter_congr h
  have hlisting : x.listing q sort = x.listing q' sort := by rw [listing, hmatching, listing]
  simp only [search, hlisting]

end Index

end Triage
