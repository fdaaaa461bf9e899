import Triage.Proofs.Service.Schedule

/-!
# Calls that the gate refuses

A mutation asks the gate as soon as it knows the project of what it addresses, and before it looks
at anything else.  So if the gate refuses, the call fails in the same way in every world and
whatever it was to do; it leaves an event that tells it was denied, and nothing else.
-/

namespace Triage

namespace Service

open Attempt Schedule

/-- Whether the call is an operation of the principal on something of a project: an issue that can
be loaded, with a lock that is not poisoned, or the component of an issue that is to be raised. -/
inductive Addresses (w : World) (principal : Principal) (uuid : ProjectUuid) :
    Operation → IssueCall → Prop
  | change {key : IssueKey} {row : Issue} (m : Mutation)
    (hopen : w.locks.isPoisoned key = false)
    (hread : w.read (.selectByKey key) = .ok (some row)) (huuid : row.projectUuid = uuid) :
    Addresses w principal uuid m.operation (.change principal key m)
  | create {component : Component} (q : ManualIssueRequest)
    (hcomponent : w.catalog.component? q.componentKey = some component)
    (huuid : component.projectUuid = uuid) :
    Addresses w principal uuid .createManualIssue (.create principal q)

/-- Whether an operation was denied: it has left an event that says so, and neither the store nor
the index has changed. -/
structure Denied (principal : Principal) (op : Operation) (project : ProjectKey) (w w' : World) :
    Prop where
  store : w'.store = w.store
  index : w'.index = w.index
  audit : ∃ e : AuditEvent, w'.audit = w.audit.record w.auditStamp e ∧ e.call = .mutation op ∧
    e.principal = some principal.login ∧ e.projectKey = some project ∧ e.outcome = .denied

variable {w w' : World} {principal : Principal} {uuid : ProjectUuid} {op : Operation}
  {c c' : IssueCall} {project : Component} {fs fs' : List (Option Failure)}

/-- A call that the gate refuses is denied. -/
theorem Addresses.attains_refused (limits : ServiceLimits) (h : Addresses w principal uuid op c)
    (hproject : w.catalog.project? uuid = some project)
    (hrefused : w.gate.permits principal op project.projectKey = false)
    (hfs : Spares ⟨w, fs⟩ 3) :
    (c.script limits).Attains scheduled
      (fun r s => r = .error .forbidden ∧ Denied principal op project.projectKey w s.world)
      ⟨w, fs⟩ := by
  cases h with
  | change m hopen hread huuid =>
    subst huuid
    refine attains_mutate_of_found hfs hopen hread hproject ?_
    refine attains_bind.2 (attains_authorize_refused hrefused ?_)
    exact ⟨rfl, rfl, rfl, _, rfl, rfl, rfl, rfl, rfl⟩
  | create q hcomponent huuid =>
    subst huuid
    refine attains_create_of_found (hfs.mono (by decide)) hcomponent hproject ?_
    refine attains_bind.2 (attains_authorize_refused hrefused ?_)
    exact ⟨rfl, rfl, rfl, _, rfl, rfl, rfl, rfl, rfl⟩

/-- Two calls of a principal that are the same operation on things of one project, in worlds with
the same grants and the same project, are denied alike if the gate refuses the operation: whatever
else the worlds hold, whatever the calls are to do, and whatever would have failed after the
look-ups. -/
theorem refusal_reveals_nothing (limits : ServiceLimits) (hc : Addresses w principal uuid op c)
    (hc' : Addresses w' principal uuid op c') (hgate : w'.gate = w.gate)
    (hproject : w.catalog.project? uuid = some project)
    (hproject' : w'.catalog.project? uuid = some project)
    (hrefused : w.gate.permits principal op project.projectKey = false)
    (hfs : Spares ⟨w, fs⟩ 3) (hfs' : Spares ⟨w', fs'⟩ 3) :
    ∃ v v', (c.script limits).run w fs = (.returned (.error .forbidden), v) ∧
      (c'.script limits).run w' fs' = (.returned (.error .forbidden), v') ∧
      Denied principal op project.projectKey w v ∧
      Denied principal op project.projectKey w' v' := by
  have hrefused' : w'.gate.permits principal op project.projectKey = false := by
    rw [hgate, hrefused]
  obtain ⟨_, s, hrun, rfl, h⟩ :=
    (hc.attains_refused limits hproject hrefused hfs).runFrom_scheduled []
  obtain ⟨_, s', hrun', rfl, h'⟩ :=
    (hc'.attains_refused limits hproject' hrefused' hfs').runFrom_scheduled []
  exact ⟨s.world, s'.world, hrun, hrun', h, h'⟩

/-- Someone without a role in the sample world. -/
def samplePeasant : Principal := ⟨⟨"samwise"⟩, []⟩

/-- The sample world with an issue that is closed. -/
def sampleClosed : World :=
  { World.sample with
    store := .memory (({} : MemoryStore).put
      { sampleIssue "a" with status := .closed, resolution := some .fixed }) }

/-- Tags that are refused and tags that would be taken, on an open issue and on a closed one. -/
theorem refusal_reveals_nothing_sample :
    Addresses sampleDivergence samplePeasant ⟨"sample"⟩ .setTags
      (.change samplePeasant ⟨"a"⟩ (.setTags [some "not a tag"])) ∧
    Addresses sampleClosed samplePeasant ⟨"sample"⟩ .setTags
      (.change samplePeasant ⟨"a"⟩ (.setTags [some "tag"])) ∧
    sampleDivergence.gate.permits samplePeasant .setTags ⟨"sample"⟩ = false ∧
    Spares ⟨sampleDivergence, []⟩ 3 ∧ Spares ⟨sampleClosed, [none, none, none, some .panic]⟩ 3 ∧
    ∃ v v', (mutate {} samplePeasant ⟨"a"⟩ (.setTags [some "not a tag"])).run sampleDivergence [] =
        (.returned (.error .forbidden), v) ∧
      (mutate {} samplePeasant ⟨"a"⟩ (.setTags [some "tag"])).run sampleClosed
        [none, none, none, some .panic] = (.returned (.error .forbidden), v') ∧
      Denied samplePeasant .setTags ⟨"sample"⟩ sampleDivergence v ∧
      Denied samplePeasant .setTags ⟨"sample"⟩ sampleClosed v' := by
  have hopen : Addresses sampleDivergence samplePeasant ⟨"sample"⟩ .setTags
      (.change samplePeasant ⟨"a"⟩ (.setTags [some "not a tag"])) :=
    .change (.setTags [some "not a tag"]) rfl rfl rfl
  have hclosed : Addresses sampleClosed samplePeasant ⟨"sample"⟩ .setTags
      (.change samplePeasant ⟨"a"⟩ (.setTags [some "tag"])) :=
    .change (.setTags [some "tag"]) rfl rfl rfl
  have hrefused : sampleDivergence.gate.permits samplePeasant .setTags ⟨"sample"⟩ = false := by
    decide
  have hspares : Spares ⟨sampleClosed, [none, none, none, some .panic]⟩ 3 := by simp [Spares]
  refine ⟨hopen, hclosed, hrefused, spares_nil _ _, hspares, ?_⟩
  exact refusal_reveals_nothing {} hopen hclosed rfl rfl rfl hrefused (spares_nil _ _) hspares

end Service

end Triage
