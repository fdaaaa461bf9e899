import Triage.Proofs.Service.LockUse
import Triage.Proofs.Service.Memoryless

/-!
# Calls of all kinds without memory

A dialogue without memory that lets rows of one kind come back and be handed over has room for every
call of the service.  The one thing that a call can ask beyond this is that the issue it raises may
be inserted.
-/

namespace Triage

namespace Service

open Attempt

/-- Whether every call of the service has room for all of its steps but the insertion of an issue
and the event: at any key rows of one kind come back, also those that are inserted, and may be
stored and indexed. -/
structure Seats (D : Dialogue Unit) (P : Issue → Prop) : Prop where
  edits : ∀ key, Edits D key P
  freshKey : D.permits () .freshKey
  inserted : ∀ {i : Issue} {rows}, D.answers () (.store (.insert [i])) (.ok rows) () →
    ∀ row ∈ rows, P row
  selectAll : D.permits () (.store .selectAll)
  selectChanges : ∀ key, D.permits () (.store (.selectChanges key))
  index : ∀ c, (Call.index c).puts? = none → D.permits () (.index c)

/-- Whether events may be recorded besides, so that only the insertion is left. -/
structure Hosts (D : Dialogue Unit) (P : Issue → Prop) : Prop extends Seats D P where
  record : ∀ e, D.permits () (.record e)

/-- Whether the issue that is raised for the request may be inserted, whatever comes to it. -/
def Raisable (D : Dialogue Unit) (q : ManualIssueRequest) : Prop :=
  ∀ key component rule reporter,
    D.permits () (.store (.insert [q.issue key component rule reporter]))

theorem Hosts.handles {D : Dialogue Unit} {P : Issue → Prop} (h : Hosts D P) (key : IssueKey) :
    Handles D key P :=
  { h.edits key with record := h.record }

namespace Seats

variable {α : Type} {D : Dialogue Unit} {P : Issue → Prop} (h : Seats D P)

include h

theorem catalog (c : CatalogCall) : D.permits () (.catalog c) := (h.edits ⟨""⟩).catalog c

theorem gate (principal : Principal) (op : Operation) (project : ProjectKey) :
    D.permits () (.permits principal op project) := (h.edits ⟨""⟩).gate principal op project

/-! ## Calls that write to the index -/

theorem yields_findManualRule (key : RuleKey) :
    (findManualRule key).Yields D fun _ => True := by
  refine (yields_catalog (h.catalog _)).bind fun _ _ => (yields_found _ _).bind fun rule _ => ?_
  split_ifs
  · exact yields_pure trivial
  · exact yields_error _

theorem yields_raiseIssue (limits : ServiceLimits) (principal : Principal)
    {q : ManualIssueRequest} (hq : Raisable D q) (component : Component) (project : ProjectKey) :
    (raiseIssue limits principal q component project).Yields D fun _ => True := by
  refine (yields_authorize (h.gate _ _ _)).bind fun _ _ => ?_
  refine (h.yields_findManualRule _).bind fun rule _ => ?_
  dsimp only
  split_ifs
  · refine (yields_freshKey h.freshKey).bind fun key _ => ?_
    refine (yields_store (hq key component rule principal.login)).bind fun rows hrows => ?_
    exact (yields_found _ _).bind fun row hrow =>
      (h.edits key).yields_indexRow (h.inserted hrows row (List.mem_of_head? hrow))
  · exact yields_error _

theorem syncs : Syncs D P :=
  ⟨h.edits, h.selectAll, h.index .keys rfl, fun key => h.index (.remove key) rfl⟩

/-! ## Calls that read -/

theorem yields_getByKey (key : IssueKey) : (getByKey key).Yields D fun _ => True :=
  (yields_index (c := .get key) (h.index _ rfl)).bind fun _ _ =>
    (yields_found _ _).mono fun _ _ => trivial

theorem yields_componentQuery (key : ComponentKey) (createdAfter : Option Timestamp) :
    (componentQuery key createdAfter).Yields D fun _ => True := by
  refine (yields_catalog (h.catalog _)).bind fun _ _ =>
    (yields_found _ _).bind fun component _ => ?_
  split_ifs <;> exact yields_pure trivial

theorem yields_nameRules (values : List FacetValue) :
    (nameRules values).Yields D fun _ => True := by
  induction values with
  | nil => exact yields_pure trivial
  | cons v values ih =>
    obtain ⟨_ | text, count⟩ := v
    · exact ih
    · exact (yields_catalog (h.catalog _)).bind fun _ _ =>
        ih.bind fun _ _ => yields_pure trivial

/-- Every call that only reads can be made. -/
theorem yields_reading (limits : ServiceLimits) {c : AnyCall} (hc : ∀ c', c ≠ .writing c') :
    (c.script limits).Yields D fun _ => True := by
  have whole {α : Type} {R : α → Prop} {x : Attempt α} (hx : x.Yields D R) :
      (do let _ ← x.run : Script Unit).Yields D fun _ => True :=
    Script.Yields.bind hx fun _ _ => Script.yields_pure trivial
  cases c with
  | writing c => exact absurd rfl (hc c)
  | document key => exact whole (h.yields_getByKey key)
  | search query context =>
    exact whole ((yields_ofExcept _).bind fun facets _ =>
      yields_index (c := .search _) (h.index _ rfl))
  | transitions key =>
    exact whole (R := fun _ => True) ((h.yields_getByKey key).bind fun _ _ => yields_pure trivial)
  | tags substring size =>
    refine whole (R := fun _ => True) ?_
    unfold listTags
    split_ifs
    · exact yields_index (c := .listTags _ _) (h.index _ rfl)
    · exact yields_pure trivial
  | rules key createdAfter =>
    exact whole ((h.yields_componentQuery _ _).bind fun query _ =>
      (yields_index (c := .facet query .rules) (h.index _ rfl)).bind
        fun _ _ => h.yields_nameRules _)
  | severities key createdAfter =>
    exact whole ((h.yields_componentQuery _ _).bind fun query _ =>
      yields_index (c := .facet query .severities) (h.index _ rfl))
  | assignees query => exact whole (yields_index (c := .facet query .assignees) (h.index _ rfl))
  | changelog key =>
    exact whole ((h.edits key).yields_loadIssue.bind fun _ _ =>
      yields_store (h.selectChanges key))

end Seats

/-- The request of a call that raises an issue. -/
def AnyCall.request? : AnyCall → Option ManualIssueRequest
  | .writing (.issue (.create _ q)) => some q
  | _ => none

namespace Hosts

variable {D : Dialogue Unit} {P : Issue → Prop} (h : Hosts D P)

include h

theorem yields_create (limits : ServiceLimits) (principal : Principal) {q : ManualIssueRequest}
    (hq : Raisable D q) : (create limits principal q).Yields D fun _ => True := by
  refine Script.Yields.bind (yields_inProject (R := fun _ => True) ?_ fun a _ =>
    h.yields_raiseIssue limits principal hq a.1 a.2) fun mutated _ =>
      Script.yields_record (h.record _) trivial
  exact (yields_catalog (h.catalog _)).bind fun _ _ => (yields_found _ _).bind fun _ _ =>
    (yields_findProject h.catalog _).bind fun _ _ => yields_pure trivial

theorem yields_indexAll : indexAll.Yields D fun _ => True :=
  Script.Yields.bind h.syncs.yields_rebuild fun _ _ => Script.yields_record (h.record _) trivial

/-- Every call of the service can be made, if what it raises may be inserted. -/
theorem yields_script (limits : ServiceLimits) {c : AnyCall}
    (hc : ∀ q, c.request? = some q → Raisable D q) : (c.script limits).Yields D fun _ => True := by
  have writing {c : ServiceCall} (hx : (c.script limits).Yields D fun _ => True) :
      ((AnyCall.writing c).script limits).Yields D fun _ => True :=
    Script.Yields.bind hx fun _ _ => Script.yields_pure trivial
  have issue {c : IssueCall} (hx : (c.script limits).Yields D fun _ => True) :
      ((ServiceCall.issue c).script limits).Yields D fun _ => True :=
    Script.Yields.bind hx fun _ _ => Script.yields_pure trivial
  cases c with
  | writing c =>
    rcases c with (⟨principal, key, m⟩ | ⟨principal, q⟩ | key) | _
    · exact writing (issue ((h.handles key).yields_mutate limits principal m))
    · exact writing (issue (h.yields_create limits principal (hc q rfl)))
    · exact writing (issue (h.handles key).yields_reindex)
    · exact writing (Script.Yields.bind h.yields_indexAll fun _ _ => Script.yields_pure trivial)
  | document | search | transitions | tags | rules | severities | assignees | changelog =>
    exact h.yields_reading limits nofun

end Hosts

end Service

end Triage
