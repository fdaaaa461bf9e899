import Triage.Proofs.Lock
import Triage.Proofs.Service.Breakdown

/-!
# Runs with given failures

The answers of a world to a script whose steps are disturbed by failures that are given beforehand.
Where a step is spared, or calls no collaborator, its answer is known.  So a call that finds its
issue or its component, and the project of that, comes to what it does with them.
-/

namespace Triage

/-- A world and the failures that are still to come, one for each step. -/
structure Schedule where
  world : World
  failures : List (Option Failure) := []

namespace Schedule

/-- The schedule after a step that is answered without disturbance. -/
def after (s : Schedule) (c : Call) : Schedule := ⟨(s.world.perform c).2, s.failures.tail⟩

/-- The schedule after a step that changes nothing. -/
def rest (s : Schedule) : Schedule := ⟨s.world, s.failures.tail⟩

/-- Whether the first `n` steps are left undisturbed. -/
def Spares (s : Schedule) (n : Nat) : Prop := ∀ f ∈ s.failures.take n, f = none

/-- The dialogue of a world with given failures, none of which breaks a script off. -/
def scheduled : Dialogue Schedule where
  permits s c := (s.world.respond (s.failures.head?.getD none) c).1.isSome
  answers s c r s' :=
    s.world.respond (s.failures.head?.getD none) c = (some r, s'.world) ∧
      s'.failures = s.failures.tail

variable {s : Schedule} {n : Nat} {c : Call}

theorem spares_nil (w : World) (n : Nat) : Spares ⟨w, []⟩ n := by simp [Spares]

theorem Spares.mono {k : Nat} (h : s.Spares n) (hk : k ≤ n) : s.Spares k :=
  fun f hf => h f (List.take_subset_take_left _ hk hf)

theorem Spares.head (h : s.Spares (n + 1)) : s.failures.head?.getD none = none := by
  obtain ⟨w, _ | ⟨f, fs⟩⟩ := s
  · rfl
  · exact h f List.mem_cons_self

theorem Spares.tail (h : s.Spares (n + 1)) (w : World) : Spares ⟨w, s.failures.tail⟩ n := by
  obtain ⟨w', _ | ⟨f, fs⟩⟩ := s
  · exact spares_nil w n
  · exact fun g hg => h g (List.mem_cons_of_mem f hg)

theorem settled_of_respond
    (h : s.world.respond (s.failures.head?.getD none) c =
      (some (s.world.perform c).1, (s.world.perform c).2))
    {Q : c.Answer → Schedule → Prop} (hQ : Q (s.world.perform c).1 (s.after c)) :
    scheduled.permits s c ∧ ∀ r s', scheduled.answers s c r s' → Q r s' := by
  refine ⟨by simp [scheduled, h], ?_⟩
  rintro r ⟨w, fs⟩ ⟨hr, rfl⟩
  obtain ⟨hanswer, rfl⟩ := Prod.mk.inj (h.symm.trans hr)
  exact Option.some.inj hanswer ▸ hQ

/-- A step that is left undisturbed has one answer. -/
theorem settled_of_head (h : s.failures.head?.getD none = none) {Q : c.Answer → Schedule → Prop}
    (hQ : Q (s.world.perform c).1 (s.after c)) :
    scheduled.permits s c ∧ ∀ r s', scheduled.answers s c r s' → Q r s' := by
  refine settled_of_respond ?_ hQ
  rw [h]
  rfl

/-- A step that calls no collaborator has one answer, whatever fails. -/
theorem settled_inside (hc : c.isOutside = false) {Q : c.Answer → Schedule → Prop}
    (hQ : Q (s.world.perform c).1 (s.after c)) :
    scheduled.permits s c ∧ ∀ r s', scheduled.answers s c r s' → Q r s' :=
  settled_of_respond (s.world.respond_inside _ hc) hQ

end Schedule

open Schedule

theorem Script.Attains.runFrom_scheduled {α : Type} {x : Script α} {Q : α → Schedule → Prop}
    {s : Schedule} (h : x.Attains scheduled Q s) (held : List IssueKey) :
    ∃ a s', x.runFrom s.world held s.failures = (.returned a, s'.world) ∧ Q a s' := by
  induction x generalizing s held with
  | done a => exact ⟨a, s, rfl, h⟩
  | ask c next ih =>
    obtain ⟨hpermits, hnext⟩ := h
    obtain ⟨r, hr⟩ := Option.isSome_iff_exists.1 hpermits
    have hrespond : s.world.respond (s.failures.head?.getD none) c =
        (some r, (s.world.respond (s.failures.head?.getD none) c).2) := Prod.ext hr rfl
    obtain ⟨a, s', hrun, hQ⟩ :=
      ih r (hnext r ⟨_, s.failures.tail⟩ ⟨hrespond, rfl⟩) (Activity.heldAfter held c r)
    refine ⟨a, s', ?_, hQ⟩
    rw [Script.runFrom, hrespond]
    exact hrun

/-- What is attained without disturbance is attained when no failures are to come. -/
theorem Script.Attains.scheduled {α : Type} {x : Script α} {Q : α → Schedule → Prop} {w : World}
    (h : x.Attains World.undisturbed (fun a w' => Q a ⟨w', []⟩) w) :
    x.Attains scheduled Q ⟨w, []⟩ := by
  induction x generalizing w with
  | done a => exact h
  | ask c next ih => exact settled_of_head rfl (ih _ (h.2 _ _ rfl))

namespace Service

open Attempt

variable {s : Schedule} {key : IssueKey} {row : Issue} {project : Component}
  {principal : Principal} {limits : ServiceLimits} {m : Mutation}

/-! ## Steps -/

theorem attains_authorize_permitted {op : Operation} {projectKey : ProjectKey}
    (h : s.world.gate.permits principal op projectKey = true)
    {Q : Except ServiceError Unit → Schedule → Prop} (hQ : Q (.ok ()) s.rest) :
    (authorize principal op projectKey).Attains scheduled Q s := by
  refine attains_authorize.2 (settled_inside rfl ?_)
  rw [show (s.world.perform (.permits principal op projectKey)).1 = true from h]
  exact hQ

theorem attains_authorize_refused {op : Operation} {projectKey : ProjectKey}
    (h : s.world.gate.permits principal op projectKey = false)
    {Q : Except ServiceError Unit → Schedule → Prop} (hQ : Q (.error .forbidden) s.rest) :
    (authorize principal op projectKey).Attains scheduled Q s := by
  refine attains_authorize.2 (settled_inside rfl ?_)
  rw [show (s.world.perform (.permits principal op projectKey)).1 = false from h]
  exact hQ

theorem attains_store_scheduled (hs : s.failures.head?.getD none = none) {c : StoreCall}
    {a : c.Answer} (hanswer : s.world.read c = .ok a)
    {Q : Except ServiceError c.Answer → Schedule → Prop} (hQ : Q (.ok a) (s.after (.store c))) :
    (store c).Attains scheduled Q s := by
  refine attains_store.2 (settled_of_head hs ?_)
  rw [show (s.world.perform (.store c)).1 = .ok a from hanswer]
  exact hQ

theorem attains_loadIssue_scheduled (hs : s.failures.head?.getD none = none)
    (hread : s.world.read (.selectByKey key) = .ok (some row))
    {Q : Except ServiceError Issue → Schedule → Prop} (hQ : Q (.ok row) s.rest) :
    (loadIssue key).Attains scheduled Q s := by
  refine attains_bind.2 (attains_store_scheduled hs hread ?_)
  have hafter : s.after (.store (.selectByKey key)) = s.rest := by
    simp only [Schedule.after, rest, World.perform, Store.perform_selectByKey]
  rw [hafter]
  refine attains_found.2 ⟨fun _ hrow => Option.some.inj hrow ▸ hQ, fun hnone => ?_⟩
  cases hnone

theorem attains_catalog_scheduled (hs : s.failures.head?.getD none = none) {c : CatalogCall}
    {Q : Except ServiceError c.Answer → Schedule → Prop}
    (hQ : Q (.ok (s.world.catalog.answer c)) s.rest) : (catalog c).Attains scheduled Q s :=
  attains_catalog.2 (settled_of_head hs hQ)

theorem attains_findProject_scheduled (hs : s.failures.head?.getD none = none) {uuid : ProjectUuid}
    (hproject : s.world.catalog.project? uuid = some project)
    {Q : Except ServiceError ProjectKey → Schedule → Prop}
    (hQ : Q (.ok project.projectKey) s.rest) :
    (findProject uuid).Attains scheduled Q s := by
  refine attains_bind.2 (attains_catalog_scheduled hs ?_)
  refine attains_bind.2 (attains_found.2 ⟨fun found hfound => ?_, fun hnone => ?_⟩)
  · cases hproject.symm.trans hfound
    exact hQ
  · cases hproject.symm.trans hnone

theorem attains_locked_scheduled {α : Type} {refused : α} {body : Script α}
    {Q : α → Schedule → Prop} (hopen : s.world.locks.isPoisoned key = false)
    (hbody : body.Attains scheduled (fun a s' => Q a (s'.after (.leave key)))
      (s.after (.enter key))) :
    (locked key refused body).Attains scheduled Q s := by
  refine Script.attains_bind.2 (Script.attains_single.2 (settled_inside rfl ?_))
  have hentered : (s.world.perform (.enter key)).1 = true := by
    change (s.world.locks.enter key).1 = true
    rw [LockTable.enter_fst, hopen]
    rfl
  rw [hentered]
  exact Script.attains_bind.2 (hbody.mono fun a s' h =>
    Script.attains_bind.2 (Script.attains_single.2 (settled_inside rfl h)))

/-- A mutation that finds its thing and the project goes on with them. -/
theorem attains_inProject_scheduled {α : Type} {a : α} {projectKey : ProjectKey} {s' : Schedule}
    {find : Attempt (α × ProjectKey)} {rest : α → ProjectKey → Attempt IssueDoc}
    {Q : Mutated → Schedule → Prop}
    (hfind : find.Attains scheduled (fun r t => r = .ok (a, projectKey) ∧ t = s') s)
    (hrest : (rest a projectKey).Attains scheduled (fun r => Q ⟨some projectKey, r⟩) s') :
    (inProject find rest).Attains scheduled Q s := by
  refine Script.attains_bind.2 (hfind.mono ?_)
  rintro _ _ ⟨rfl, rfl⟩
  exact Script.attains_bind.2 hrest

/-! ## Mutations of what is found -/

/-- A change of an issue that can be loaded, with its project, comes to the change of the row. -/
theorem attains_mutate_of_found (hs : s.Spares 3) (hopen : s.world.locks.isPoisoned key = false)
    (hread : s.world.read (.selectByKey key) = .ok (some row))
    (hproject : s.world.catalog.project? row.projectUuid = some project)
    {Q : Except ServiceError IssueDoc → Schedule → Prop}
    (hchange : (changeRow limits principal m row project.projectKey).Attains scheduled
      (fun r s' => Q r ((s'.after (.leave key)).after
        (.record (mutationEvent m.operation (some key) principal ⟨some project.projectKey, r⟩))))
      (s.after (.enter key)).rest.rest) :
    (mutate limits principal key m).Attains scheduled Q s := by
  have hload : (s.after (.enter key)).Spares 2 := hs.tail _
  have hfind : (s.after (.enter key)).rest.Spares 1 := hload.tail _
  refine Script.attains_bind.2 (attains_locked_scheduled hopen
    (attains_inProject_scheduled (a := row) ?_ (hchange.mono fun r s' h => ?_)))
  · refine attains_bind.2 (attains_loadIssue_scheduled hload.head hread ?_)
    exact attains_bind.2 (attains_findProject_scheduled hfind.head hproject ⟨rfl, rfl⟩)
  · exact Script.attains_bind.2 (Script.attains_single.2 (settled_inside rfl h))

/-- A manual issue on a component that is found, with its project, comes to its being raised. -/
theorem attains_create_of_found {q : ManualIssueRequest} {component : Component} (hs : s.Spares 2)
    (hcomponent : s.world.catalog.component? q.componentKey = some component)
    (hproject : s.world.catalog.project? component.projectUuid = some project)
    {Q : Except ServiceError IssueDoc → Schedule → Prop}
    (hraise : (raiseIssue limits principal q component project.projectKey).Attains scheduled
      (fun r s' => Q r (s'.after (.record (mutationEvent .createManualIssue
        (r.toOption.map (·.key)) principal ⟨some project.projectKey, r⟩)))) s.rest.rest) :
    (create limits principal q).Attains scheduled Q s := by
  have hfind : s.rest.Spares 1 := hs.tail _
  refine Script.attains_bind.2 (attains_inProject_scheduled (a := component) ?_
    (hraise.mono fun r s' h => ?_))
  · refine attains_bind.2 (attains_catalog_scheduled hs.head ?_)
    refine attains_bind.2 (attains_found.2 ⟨fun found hfound => ?_, fun hnone => ?_⟩)
    · cases hcomponent.symm.trans hfound
      exact attains_bind.2 (attains_findProject_scheduled hfind.head hproject ⟨rfl, rfl⟩)
    · cases hcomponent.symm.trans hnone
  · exact Script.attains_bind.2 (Script.attains_single.2 (settled_inside rfl h))

end Service

end Triage
