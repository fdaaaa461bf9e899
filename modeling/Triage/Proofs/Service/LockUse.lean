import Triage.Proofs.Service.Interleaving
import Triage.Service.Reading

/-!
# The locks that calls take

Every call of the service leaves only locks that it has entered, and in the end it has left them
all.
-/

namespace Triage

namespace Script

variable {α β : Type} {held mid rest : List IssueKey}

/-- Whether a script that holds the locks of `held` leaves only locks that it holds, and ends with
those of `rest`. -/
def Spans : Script α → (held rest : List IssueKey) → Prop
  | .done _, held, rest => held = rest
  | .ask c next, held, rest => (∀ key, c = .leave key → key ∈ held) ∧
    ∀ r, (next r).Spans (Activity.heldAfter held c r) rest

/-- Whether a script ends with the locks that it started with. -/
def Restores (x : Script α) : Prop := ∀ held, x.Spans held held

theorem Spans.bind {x : Script α} {f : α → Script β} (hx : x.Spans held mid)
    (hf : ∀ a, (f a).Spans mid rest) : (x >>= f).Spans held rest := by
  induction x generalizing held with
  | done a =>
    obtain rfl : held = mid := hx
    exact hf a
  | ask c next ih => exact ⟨hx.1, fun r => ih r (hx.2 r)⟩

theorem Restores.bind {x : Script α} {f : α → Script β} (hx : x.Restores)
    (hf : ∀ a, (f a).Restores) : (x >>= f).Restores :=
  fun held => (hx held).bind fun a => hf a held

theorem restores_pure (a : α) : (pure a : Script α).Restores := fun _ => rfl

theorem restores_record (e : AuditEvent) (a : α) :
    (do single (.record e); return a : Script α).Restores :=
  fun _ => ⟨nofun, fun _ => rfl⟩

end Script

/-- Whether an attempt ends with the locks that it started with. -/
def Attempt.Restores {α : Type} (x : Attempt α) : Prop := x.run.Restores

namespace Attempt

variable {α β : Type}

theorem Restores.bind {x : Attempt α} {f : α → Attempt β} (hx : x.Restores)
    (hf : ∀ a, (f a).Restores) : (x >>= f).Restores := by
  refine Script.Restores.bind hx fun r => ?_
  cases r with
  | ok a => exact hf a
  | error e => exact Script.restores_pure _

theorem restores_pure (a : α) : (pure a : Attempt α).Restores := fun _ => rfl

theorem restores_throw (e : ServiceError) : (throw e : Attempt α).Restores := fun _ => rfl

theorem restores_store (c : StoreCall) : (store c).Restores := fun _ => ⟨nofun, fun _ => rfl⟩

theorem restores_index (c : IndexCall) : (index c).Restores := fun _ => ⟨nofun, fun _ => rfl⟩

theorem restores_catalog (c : CatalogCall) : (catalog c).Restores := fun _ => ⟨nofun, fun _ => rfl⟩

theorem restores_authorize (p : Principal) (op : Operation) (project : ProjectKey) :
    (authorize p op project).Restores :=
  fun _ => ⟨nofun, fun _ => rfl⟩

theorem restores_freshKey : freshKey.Restores := fun _ => ⟨nofun, fun _ => rfl⟩

theorem restores_found (o : Option α) (e : ServiceError) : (found o e).Restores := fun _ => rfl

theorem restores_ofExcept (r : Except ServiceError α) : (ofExcept r).Restores := fun _ => rfl

end Attempt

namespace Service

open Attempt

variable {key : IssueKey}

/-- Work under the lock of a key. -/
theorem restores_locked {α : Type} {refused : α} {body : Script α} (hbody : body.Restores) :
    (locked key refused body).Restores := by
  intro held
  have hleave (a : α) : (do Script.single (.leave key); return a).Spans (key :: held) held := by
    refine ⟨?_, fun _ => List.erase_cons_head ..⟩
    rintro _ ⟨⟩
    exact List.mem_cons_self
  refine ⟨nofun, fun entered => ?_⟩
  cases entered with
  | false => exact rfl
  | true => exact (hbody (key :: held)).bind hleave

/-! ## Calls that write -/

theorem restores_loadIssue (key : IssueKey) : (loadIssue key).Restores :=
  (restores_store _).bind fun _ => restores_found _ _

theorem restores_findProject (uuid : ProjectUuid) : (findProject uuid).Restores :=
  (restores_catalog _).bind fun _ => (restores_found _ _).bind fun _ => restores_pure _

theorem restores_indexRow (row : Issue) : (indexRow row).Restores :=
  (restores_index _).bind fun _ => (restores_index _).bind fun _ => restores_found _ _

theorem restores_inProject {α : Type} {find : Attempt (α × ProjectKey)}
    {rest : α → ProjectKey → Attempt IssueDoc} (hfind : find.Restores)
    (hrest : ∀ a project, (rest a project).Restores) : (inProject find rest).Restores := by
  refine Script.Restores.bind hfind fun r => ?_
  cases r with
  | error e => exact Script.restores_pure _
  | ok a => exact Script.Restores.bind (hrest a.1 a.2) fun _ => Script.restores_pure _

theorem Mutation.restores_apply (limits : ServiceLimits) (i : Issue) (m : Mutation) :
    (m.apply limits i).Restores := by
  cases m with
  | transition t => exact restores_ofExcept _
  | assign login =>
    simp only [apply, applyAssignee]
    split
    · exact (restores_catalog _).bind fun _ => (restores_found _ _).bind fun _ => restores_pure _
    · exact restores_pure _
  | plan key =>
    simp only [apply, applyPlan]
    split
    · exact (restores_catalog _).bind fun _ => (restores_found _ _).bind fun _ => restores_pure _
    · exact restores_pure _
  | setSeverity s => exact restores_pure _
  | setTags entries => exact restores_ofExcept _

theorem restores_mutateLocked (limits : ServiceLimits) (principal : Principal) (key : IssueKey)
    (m : Mutation) : (mutateLocked limits principal key m).Restores := by
  refine restores_inProject ?_ fun current project => ?_
  · exact (restores_loadIssue _).bind fun _ => (restores_findProject _).bind fun _ =>
      restores_pure _
  · exact (restores_authorize _ _ _).bind fun _ => (m.restores_apply _ _).bind fun _ =>
      (restores_store _).bind fun _ => restores_indexRow _

theorem restores_findManualRule (key : RuleKey) : (findManualRule key).Restores := by
  refine (restores_catalog _).bind fun _ => (restores_found _ _).bind fun rule => ?_
  split_ifs
  · exact restores_pure _
  · exact restores_throw _

theorem restores_raiseIssue (limits : ServiceLimits) (principal : Principal)
    (q : ManualIssueRequest) (component : Component) (project : ProjectKey) :
    (raiseIssue limits principal q component project).Restores := by
  refine (restores_authorize _ _ _).bind fun _ => (restores_findManualRule _).bind fun rule => ?_
  dsimp only
  split_ifs
  · exact restores_freshKey.bind fun _ => (restores_store _).bind fun _ =>
      (restores_found _ _).bind fun _ => restores_indexRow _
  · exact restores_throw _

theorem restores_create (limits : ServiceLimits) (principal : Principal) (q : ManualIssueRequest) :
    (create limits principal q).Restores := by
  refine Script.Restores.bind (restores_inProject ?_ fun _ _ => restores_raiseIssue _ _ _ _ _)
    fun _ => Script.restores_record _ _
  exact (restores_catalog _).bind fun _ => (restores_found _ _).bind fun _ =>
    (restores_findProject _).bind fun _ => restores_pure _

theorem restores_syncKey (key : IssueKey) : (syncKey key).Restores := by
  refine (restores_store _).bind fun row? => ?_
  cases row? with
  | none => exact (restores_index _).bind fun _ => restores_pure _
  | some row => exact (restores_index _).bind fun _ => restores_pure _

theorem restores_syncKeys (keys : List IssueKey) : (syncKeys keys).Restores := by
  induction keys with
  | nil => exact restores_pure 0
  | cons key keys ih =>
    exact Restores.bind (restores_locked (restores_syncKey key)) fun _ => ih.bind fun _ =>
      restores_pure _

theorem restores_indexAll : indexAll.Restores := by
  refine Script.Restores.bind (restores_store _ |>.bind fun rows => ?_) fun _ =>
    Script.restores_record _ _
  exact (restores_index _).bind fun keys => restores_syncKeys _

theorem IssueCall.restores_script (limits : ServiceLimits) (c : IssueCall) :
    (c.script limits).Restores := by
  cases c with
  | change principal key m =>
    exact (restores_locked (restores_mutateLocked limits principal key m)).bind fun _ =>
      Script.restores_record _ _
  | create principal q => exact restores_create _ _ _
  | reindex key =>
    refine (restores_locked ?_).bind fun _ => Script.restores_record _ _
    exact (restores_loadIssue key).bind restores_indexRow

/-! ## Calls of all kinds -/

/-- A call of the service, of any kind. -/
inductive AnyCall
  | writing (c : ServiceCall)
  | document (key : IssueKey)
  | search (query : IssueQuery) (context : QueryContext)
  | transitions (key : IssueKey)
  | tags (substring : Option String) (size : Int64)
  | rules (key : ComponentKey) (createdAfter : Option Timestamp)
  | severities (key : ComponentKey) (createdAfter : Option Timestamp)
  | assignees (query : IssueQuery)
  | changelog (key : IssueKey)

/-- The work of the call, whatever it answers. -/
def AnyCall.script (limits : ServiceLimits) : AnyCall → Script Unit
  | writing c => do let _ ← c.script limits
  | document key => do let _ ← (getByKey key).run
  | search query context => do let _ ← (Service.search limits query context).run
  | transitions key => do let _ ← (listTransitions key).run
  | tags substring size => do let _ ← (listTags substring size).run
  | rules key createdAfter => do let _ ← (rulesByComponent key createdAfter).run
  | severities key createdAfter => do let _ ← (severitiesByComponent key createdAfter).run
  | assignees query => do let _ ← (Service.assignees query).run
  | changelog key => do let _ ← (Service.changelog key).run

theorem restores_getByKey (key : IssueKey) : (getByKey key).Restores :=
  (restores_index _).bind fun _ => restores_found _ _

theorem restores_componentQuery (key : ComponentKey) (createdAfter : Option Timestamp) :
    (componentQuery key createdAfter).Restores := by
  refine (restores_catalog _).bind fun _ => (restores_found _ _).bind fun component => ?_
  split_ifs <;> exact restores_pure _

theorem restores_nameRules (values : List FacetValue) : (nameRules values).Restores := by
  induction values with
  | nil => exact restores_pure _
  | cons v values ih =>
    obtain ⟨_ | text, count⟩ := v
    · exact ih
    · exact (restores_catalog _).bind fun _ => ih.bind fun _ => restores_pure _

theorem ServiceCall.restores_script (limits : ServiceLimits) (c : ServiceCall) :
    (c.script limits).Restores := by
  cases c with
  | issue c => exact (c.restores_script limits).bind fun _ => Script.restores_pure _
  | indexAll => exact restores_indexAll.bind fun _ => Script.restores_pure _

/-- Every call of the service gives back the locks that it takes. -/
theorem AnyCall.restores_script (limits : ServiceLimits) (c : AnyCall) :
    (c.script limits).Restores := by
  have whole {α : Type} {x : Attempt α} (hx : x.Restores) :
      (do let _ ← x.run : Script Unit).Restores :=
    Script.Restores.bind hx fun _ => Script.restores_pure _
  cases c with
  | writing c => exact (c.restores_script limits).bind fun _ => Script.restores_pure _
  | document key => exact whole (restores_getByKey key)
  | search query context => exact whole ((restores_ofExcept _).bind fun _ => restores_index _)
  | transitions key => exact whole ((restores_getByKey key).bind fun _ => restores_pure _)
  | tags substring size =>
    refine whole ?_
    unfold listTags
    split_ifs
    · exact restores_index _
    · exact restores_pure _
  | rules key createdAfter =>
    exact whole ((restores_componentQuery _ _).bind fun _ =>
      (restores_index _).bind fun _ => restores_nameRules _)
  | severities key createdAfter =>
    exact whole ((restores_componentQuery _ _).bind fun _ => restores_index _)
  | assignees query => exact whole (restores_index _)
  | changelog key => exact whole ((restores_loadIssue _).bind fun _ => restores_store _)

end Service

end Triage
