import Triage.Service.World

/-!
# Planned faults

A plan that makes the calls of chosen kinds fail, or has something else done in the middle of one
of them.
-/

namespace Triage

/-- A kind of call that a fault can strike. -/
inductive FaultTarget
  | storeInsert
  | storeSelectByKey
  | storeSelectAll
  | storeUpdateWithChange
  | storeSelectChanges
  | indexPut
  | indexRemove
  | indexKeys
  | indexGet
  | indexSearch
  | indexListTags
  | indexFacet
  | catalogRule
  | catalogUser
  | catalogPlan
  | catalogComponent
  | catalogProject
deriving DecidableEq, Repr

instance : Label FaultTarget where
  noun := "target"
  all := [.storeInsert, .storeSelectByKey, .storeSelectAll, .storeUpdateWithChange,
    .storeSelectChanges, .indexPut, .indexRemove, .indexKeys, .indexGet, .indexSearch,
    .indexListTags, .indexFacet, .catalogRule, .catalogUser, .catalogPlan, .catalogComponent,
    .catalogProject]
  label
    | .storeInsert => "store.insert"
    | .storeSelectByKey => "store.select_by_key"
    | .storeSelectAll => "store.select_all"
    | .storeUpdateWithChange => "store.update_with_change"
    | .storeSelectChanges => "store.select_changes"
    | .indexPut => "index.index"
    | .indexRemove => "index.remove"
    | .indexKeys => "index.keys"
    | .indexGet => "index.get_by_key"
    | .indexSearch => "index.search"
    | .indexListTags => "index.list_tags"
    | .indexFacet => "index.facet"
    | .catalogRule => "catalog.rule"
    | .catalogUser => "catalog.user"
    | .catalogPlan => "catalog.plan"
    | .catalogComponent => "catalog.component"
    | .catalogProject => "catalog.project"

/-- The collaborator that the target belongs to. -/
inductive Collaborator
  | store
  | index
  | catalog
deriving DecidableEq, Repr

/-- The collaborator that the target belongs to. -/
def FaultTarget.collaborator : FaultTarget → Collaborator
  | .storeInsert | .storeSelectByKey | .storeSelectAll | .storeUpdateWithChange
  | .storeSelectChanges => .store
  | .indexPut | .indexRemove | .indexKeys | .indexGet | .indexSearch | .indexListTags
  | .indexFacet => .index
  | .catalogRule | .catalogUser | .catalogPlan | .catalogComponent | .catalogProject => .catalog

/-- The failure that a word names for calls of the target; a word that names none stands for the
most general error. -/
def FaultTarget.failure (t : FaultTarget) (word detail : String) : Failure :=
  if word = "panic" then .panic
  else if word = "empty" ∧ (t = .storeInsert ∨ t = .indexGet) then .empty
  else match t.collaborator with
    | .store => .store ⟨(Label.ofLabel? word).getD .other, detail⟩
    | .index => .index (if word = "Invalid" then .invalid detail else .unavailable detail)
    | .catalog => .catalog ⟨detail⟩

/-- The kind of call that a step is. -/
def Call.target? : Call → Option FaultTarget
  | .store (.insert _) => some .storeInsert
  | .store (.selectByKey _) => some .storeSelectByKey
  | .store .selectAll => some .storeSelectAll
  | .store (.updateWithChange _ _ _) => some .storeUpdateWithChange
  | .store (.selectChanges _) => some .storeSelectChanges
  | .index (.put _) => some .indexPut
  | .index (.remove _) => some .indexRemove
  | .index .keys => some .indexKeys
  | .index (.get _) => some .indexGet
  | .index (.search _) => some .indexSearch
  | .index (.listTags _ _) => some .indexListTags
  | .index (.facet _ _) => some .indexFacet
  | .catalog (.rule _) => some .catalogRule
  | .catalog (.user _) => some .catalogUser
  | .catalog (.plan _) => some .catalogPlan
  | .catalog (.component _) => some .catalogComponent
  | .catalog (.project _) => some .catalogProject
  | _ => none

/-- What a fault does to a call: makes it fail, from then on, or has something done between its
answer and the next step, once. -/
inductive Disturbance (σ : Type)
  | fail (f : Failure)
  | interrupt (work : σ)

/-- A fault: its target, how many calls still pass before it, and what it does. -/
structure Fault (σ : Type) where
  target : FaultTarget
  skip : Nat
  disturbance : Disturbance σ

/-- The faults in force, at most one for each target. -/
structure FaultPlan (σ : Type) where
  faults : List (Fault σ) := []

namespace FaultPlan

variable {σ : Type}

/-- The plan without a fault for the target. -/
def without (p : FaultPlan σ) (t : FaultTarget) : FaultPlan σ :=
  ⟨p.faults.filter fun f => f.target ≠ t⟩

/-- The plan with `f`, in place of a fault for the same target. -/
def set (p : FaultPlan σ) (f : Fault σ) : FaultPlan σ := ⟨f :: (p.without f.target).faults⟩

/-- What is done to a step, and the plan after it. -/
def strike (p : FaultPlan σ) (c : Call) : Option (Disturbance σ) × FaultPlan σ :=
  match p.faults.find? fun f => c.target? = some f.target with
  | none => (none, p)
  | some f =>
    match f.skip, f.disturbance with
    | n + 1, _ => (none, p.set { f with skip := n })
    | 0, .fail e => (some (.fail e), p)
    | 0, .interrupt work => (some (.interrupt work), p.without f.target)

end FaultPlan

end Triage
