import Triage.Proofs.Search.Filter
import Triage.Proofs.Service.Lasting
import Triage.Proofs.Service.Schedule

/-!
# The life of an issue

Status and resolution of every row and every document stay in step over all runs.  So what is
resolved can be searched for by status as well, and the transitions that are offered for a document
which has the status of its row are those that a change of the row succeeds with.
-/

namespace Triage

/-- Whether status and resolution of the issue are in step. -/
def Issue.WellFormed (i : Issue) : Prop := Workflow.State.WellFormed ⟨i.status, i.resolution⟩

namespace Service

open Attempt Schedule

/-! ## Status and resolution -/

theorem Mutation.wellFormed_of_applyTransition {i j : Issue} {t : Transition}
    (h : applyTransition i t = .ok j) (hi : i.WellFormed) : j.WellFormed := by
  unfold applyTransition at h
  split at h
  case h_1 s hs =>
    cases h
    exact Workflow.wellFormed_of_apply hs hi
  case h_2 => cases h

theorem lasting_wellFormed : Lasting Issue.WellFormed where
  raised _ _ _ _ _ := .pending List.mem_cons_self
  changed := by
    intro limits m i j h hi
    cases m with
    | transition t => exact Mutation.wellFormed_of_applyTransition h hi
    | setTags entries =>
      simp only [Mutation.changed] at h
      split at h <;> cases h
      exact hi
    | assign | plan | setSeverity =>
      cases h
      exact hi
  stamped _ _ hi := hi
  measured _ hi := hi

/-! ## Searching -/

variable {w : World}

/-- Queries that accept the same of the documents that are there have the same answer. -/
theorem search_run_congr {q q' : IssueQuery}
    (h : ∀ d ∈ w.index.docs.values, q.accepts d = q'.accepts d) (limits : ServiceLimits)
    (c : QueryContext) (fs : List (Option Failure)) :
    (search limits q c).run.run w fs = (search limits q' c).run.run w fs := by
  unfold search
  rcases c.facets.mapM facetNamed with e | facets
  · rfl
  · let answered (r : SearchResult) : Outcome (Except ServiceError SearchResult) × World :=
      (.returned (.ok r), w)
    have hsearch := congrArg answered
      (Index.search_congr h facets c.offset (limits.pageSize c.limit) c.sort)
    rcases fs with _ | ⟨_ | f, fs⟩
    · exact hsearch
    · exact hsearch
    -- a failure of the index, or a break, comes before the search; others leave it alone
    cases f with
    | index | panic => rfl
    | store | catalog | empty => exact hsearch

theorem mem_docs_values {d : IssueDoc} (h : d ∈ w.index.docs.values) :
    ∃ key, w.index.get? key = some d := by
  obtain ⟨⟨key, d'⟩, he, rfl⟩ := List.mem_map.1 h
  exact ⟨key, KeyMap.mem_entries_iff.1 he⟩

/-- Where all documents are in step, the resolved ones are those with a status of such issues. -/
theorem search_resolved_eq (hw : w.All Issue.WellFormed) {q : IssueQuery}
    (hstatuses : q.statuses = []) (hresolved : q.resolved = none) (resolved : Bool)
    (limits : ServiceLimits) (c : QueryContext) (fs : List (Option Failure)) :
    (search limits { q with resolved := some resolved } c).run.run w fs =
      (search limits { q with statuses := Status.ofResolved resolved } c).run.run w fs := by
  refine search_run_congr (fun d hd => ?_) limits c fs
  obtain ⟨key, hkey⟩ := mem_docs_values hd
  exact IssueQuery.accepts_resolved_eq (hw.docs key d hkey) hstatuses hresolved resolved

/-! ## Transitions -/

variable {key : IssueKey} {row : Issue} {d : IssueDoc} {principal : Principal} {t : Transition}
  {limits : ServiceLimits} {s : Schedule}

/-- Whether the principal is served with transitions of the row at the key: its lock is not
poisoned, its project is known and permits them, and the store takes each row that one of them makes
of it. -/
structure Serves (w : World) (principal : Principal) (key : IssueKey) (row : Issue) : Prop where
  isOpen : w.locks.isPoisoned key = false
  permits : ∃ project, w.catalog.project? row.projectUuid = some project ∧
    w.gate.permits principal .transition project.projectKey = true
  takes : ∀ t changed, Mutation.applyTransition row t = .ok changed →
    ∃ stored, w.read (.updateWithChange changed principal.login (row.diffs changed)) = .ok stored

/-- A store in memory takes any change of a row that it holds. -/
theorem serves_of_inMemory (hw : w.InMemory) (hread : w.read (.selectByKey key) = .ok (some row))
    (hkey : row.key = key) (isOpen : w.locks.isPoisoned key = false)
    (permits : ∃ project, w.catalog.project? row.projectUuid = some project ∧
      w.gate.permits principal .transition project.projectKey = true) :
    Serves w principal key row := by
  refine ⟨isOpen, permits, fun t changed hchanged => ?_⟩
  have hchanged : (Mutation.transition t).changed {} row = .ok changed := hchanged
  obtain rfl : changed.key = key := (Mutation.key_of_changed_eq_ok hchanged).trans hkey
  obtain ⟨m, hm⟩ := hw
  rw [World.read, hm] at hread
  have hrow : m.issues.get? changed.key = some row := Except.ok.inj hread
  refine ⟨changed.updated row.createdAt row.updatedAt w.clock, ?_⟩
  rw [World.read, hm]
  simp [Store.perform, MemoryStore.perform, MemoryStore.updateWithChange, MemoryStore.update, hrow]

/-- Whether a transition of a row comes to what it should: to a document if it is offered, and to
the error that tells it and the status if it is not. -/
structure Obeys (row : Issue) (t : Transition) (r : Except ServiceError IssueDoc) : Prop where
  succeeds : t ∈ Workflow.offered ⟨row.status, row.resolution⟩ → ∃ d, r = .ok d
  fails : t ∉ Workflow.offered ⟨row.status, row.resolution⟩ →
    r = .error (.illegalTransition ⟨t, row.status⟩)

theorem Mutation.exists_applyTransition (h : t ∈ Workflow.offered ⟨row.status, row.resolution⟩) :
    ∃ changed, applyTransition row t = .ok changed := by
  obtain ⟨s', hs'⟩ := Workflow.mem_offered_iff_exists_apply.1 h
  rw [applyTransition, hs']
  exact ⟨_, rfl⟩

theorem Mutation.applyTransition_of_not_offered
    (h : t ∉ Workflow.offered ⟨row.status, row.resolution⟩) :
    applyTransition row t = .error (.illegalTransition ⟨t, row.status⟩) := by
  rw [applyTransition, Workflow.apply_of_not_offered h]

theorem attains_changeRow_transition (hs : s.failures = []) {project : ProjectKey}
    (hpermits : s.world.gate.permits principal .transition project = true)
    (htakes : ∀ changed, Mutation.applyTransition row t = .ok changed → ∃ stored,
      s.world.read (.updateWithChange changed principal.login (row.diffs changed)) = .ok stored) :
    (changeRow limits principal (.transition t) row project).Attains scheduled
      (fun r _ => Obeys row t r) s := by
  obtain ⟨w, fs⟩ := s
  subst hs
  refine attains_bind.2 (attains_authorize_permitted hpermits (attains_bind.2 ?_))
  change Then scheduled _ _ (Mutation.applyTransition row t) _
  by_cases ht : t ∈ Workflow.offered ⟨row.status, row.resolution⟩
  · obtain ⟨changed, happly⟩ := Mutation.exists_applyTransition ht
    obtain ⟨stored, hstored⟩ := htakes changed happly
    rw [happly]
    refine attains_bind.2 (attains_store_scheduled rfl hstored ?_)
    refine Script.Attains.scheduled (Script.Attains.mono ?_ attains_indexRow_undisturbed)
    rintro _ _ ⟨rfl, -⟩
    exact ⟨fun _ => ⟨_, rfl⟩, fun hno => absurd ht hno⟩
  · rw [Mutation.applyTransition_of_not_offered ht]
    exact ⟨fun hin => absurd hin ht, fun _ => rfl⟩

theorem attains_listTransitions {w : World} (hdoc : w.index.get? key = some d) :
    (listTransitions key).Attains scheduled
      (fun r s => r = .ok (Workflow.offered ⟨d.status, d.resolution⟩) ∧ s.world = w) ⟨w, []⟩ := by
  refine attains_bind.2 (attains_bind.2 (attains_index.2 (settled_of_head rfl ?_)))
  refine attains_found.2 ⟨fun d' hd' => ?_, fun hnone => ?_⟩
  · cases hdoc.symm.trans hd'
    exact ⟨rfl, rfl⟩
  · cases hdoc.symm.trans hnone

/-- The transitions that are listed are those that succeed. -/
theorem listTransitions_iff {w : World} (hread : w.read (.selectByKey key) = .ok (some row))
    (hdoc : w.index.get? key = some d) (hstatus : d.status = row.status)
    (hserves : Serves w principal key row) :
    ∃ offered, (listTransitions key).run.run w [] = (.returned (.ok offered), w) ∧ ∀ t,
      (t ∈ offered ↔ ∃ d' w', (mutate limits principal key (.transition t)).run w [] =
        (.returned (.ok d'), w')) ∧
      (t ∉ offered → ∃ w', (mutate limits principal key (.transition t)).run w [] =
        (.returned (.error (.illegalTransition ⟨t, row.status⟩)), w')) := by
  obtain ⟨_, s, hlist, rfl, hs⟩ := (attains_listTransitions hdoc).runFrom_scheduled []
  obtain ⟨project, hproject, hpermits⟩ := hserves.permits
  refine ⟨_, hs ▸ hlist, fun t => ?_⟩
  have hmutate : (mutate limits principal key (.transition t)).Attains scheduled
      (fun r _ => Obeys row t r) ⟨w, []⟩ :=
    attains_mutate_of_found (spares_nil w 3) hserves.isOpen hread hproject
      (attains_changeRow_transition rfl hpermits (hserves.takes t))
  obtain ⟨r, s', hrun, hr⟩ := hmutate.runFrom_scheduled []
  have hoffered : Workflow.offered ⟨d.status, d.resolution⟩ =
      Workflow.offered ⟨row.status, row.resolution⟩ := by rw [hstatus]; rfl
  rw [hoffered]
  refine ⟨⟨fun ht => ?_, fun ⟨d', w', hok⟩ => ?_⟩, fun ht => ?_⟩
  · obtain ⟨d', rfl⟩ := hr.succeeds ht
    exact ⟨d', s'.world, hrun⟩
  · by_contra ht
    rw [hr.fails ht] at hrun
    cases hrun.symm.trans hok
  · exact ⟨s'.world, hr.fails ht ▸ hrun⟩

/-! ## The invariant -/

/-- Over any run of calls of any kind, whatever fails and breaks off, on rows that are put into the
store with status and resolution in step: every row and every document is in step, so that searches
by being resolved and by status agree, and where a document has the status of its row, the
transitions that are listed are those that succeed. -/
theorem wellFormed_of_run (limits : ServiceLimits) {ι : Type} [DecidableEq ι] {w : World}
    (hw : Start w) (calls : ι → AnyCall) {ts : List (ShiftTurn ι)}
    (hts : ∀ issues, .ingest issues ∈ ts → ∀ i ∈ issues, i.WellFormed) {b : Shift ι}
    (hb : (Shift.start limits w calls).run ts = b) :
    (∀ key, b.world.store.HasRow key →
      ∃ row, b.world.read (.selectByKey key) = .ok (some row) ∧ row.WellFormed) ∧
    (∀ key d, b.world.index.get? key = some d → d.WellFormed) ∧
    (∀ (q : IssueQuery) (c : QueryContext) (fs : List (Option Failure)),
      q.statuses = [] → q.resolved = none →
      (search limits { q with resolved := some true } c).run.run b.world fs =
          (search limits { q with statuses := Status.settled } c).run.run b.world fs ∧
        (search limits { q with resolved := some false } c).run.run b.world fs =
          (search limits { q with statuses := Status.pending } c).run.run b.world fs) ∧
    ∀ (principal : Principal) (key : IssueKey) (row : Issue) (d : IssueDoc),
      b.world.read (.selectByKey key) = .ok (some row) → b.world.index.get? key = some d →
      d.status = row.status → Serves b.world principal key row →
      ∃ offered, (listTransitions key).run.run b.world [] = (.returned (.ok offered), b.world) ∧
        ∀ t, (t ∈ offered ↔ ∃ d' w', (mutate limits principal key (.transition t)).run b.world [] =
            (.returned (.ok d'), w')) ∧
          (t ∉ offered → ∃ w', (mutate limits principal key (.transition t)).run b.world [] =
            (.returned (.error (.illegalTransition ⟨t, row.status⟩)), w')) := by
  have hall : b.world.All Issue.WellFormed :=
    hb ▸ ((Shift.Lasts.start lasting_wellFormed hw limits calls).run lasting_wellFormed hts).world
  refine ⟨fun key hrow => ?_, hall.docs, fun q c fs hstatuses hresolved => ?_, ?_⟩
  · obtain ⟨i, rfl, hi, hwell⟩ := hall.rows key hrow
    obtain ⟨effort, hread⟩ := hi.exists_selectByKey b.world.clock
    exact ⟨_, hread, hwell⟩
  · exact ⟨search_resolved_eq hall hstatuses hresolved true limits c fs,
      search_resolved_eq hall hstatuses hresolved false limits c fs⟩
  · exact fun principal key row d hread hdoc hstatus hserves =>
      listTransitions_iff hread hdoc hstatus hserves

/-- An issue is put into the store and resolved. -/
def sampleLife : List (ShiftTurn Unit) :=
  .ingest [sampleIssue "a"] :: List.replicate 9 (.step () none)

def sampleResolving : Shift Unit :=
  .start {} World.sample fun _ =>
    .writing (.issue (.change ⟨⟨"gandalf"⟩, []⟩ ⟨"a"⟩ (.transition .resolve)))

/-- The issue can be found as resolved, and its document lists what can be done with its row. -/
theorem wellFormed_of_run_sample : Start World.sample ∧
    (∀ issues, .ingest issues ∈ sampleLife → ∀ i ∈ issues, i.WellFormed) ∧
    ∃ b, sampleResolving.run sampleLife = b ∧
      (search {} { resolved := some true } {}).run.run b.world [] =
        (search {} { statuses := Status.settled } {}).run.run b.world [] ∧
      ∃ row d, b.world.read (.selectByKey ⟨"a"⟩) = .ok (some row) ∧ row.status = .resolved ∧
        b.world.index.get? ⟨"a"⟩ = some d ∧ d.status = row.status ∧
        Serves b.world ⟨⟨"gandalf"⟩, []⟩ ⟨"a"⟩ row ∧
        ∃ offered, (listTransitions ⟨"a"⟩).run.run b.world [] =
          (.returned (.ok offered), b.world) := by
  have hstart : Start World.sample := ⟨World.not_hasRow_sample, fun _ => rfl, fun _ => rfl⟩
  have hts : ∀ issues, .ingest issues ∈ sampleLife → ∀ i ∈ issues, i.WellFormed := by
    intro issues hin i hi
    rcases List.mem_cons.1 hin with hin | hin
    · cases hin
      rw [List.mem_singleton.1 hi]
      exact .pending List.mem_cons_self
    · cases List.eq_of_mem_replicate hin
  obtain ⟨-, -, hsearch, hoffered⟩ := wellFormed_of_run (b := sampleResolving.run sampleLife) {}
    hstart _ hts rfl
  obtain ⟨row, hread, hkey, hproject, hstatus⟩ : ∃ row,
      (sampleResolving.run sampleLife).world.read (.selectByKey ⟨"a"⟩) = .ok (some row) ∧
        row.key = ⟨"a"⟩ ∧ row.projectUuid = (sampleIssue "a").projectUuid ∧
        row.status = .resolved :=
    ⟨_, rfl, rfl, rfl, rfl⟩
  obtain ⟨d, hdoc, hd⟩ : ∃ d, (sampleResolving.run sampleLife).world.index.get? ⟨"a"⟩ = some d ∧
      d.status = .resolved := ⟨_, rfl, rfl⟩
  have hserves : Serves (sampleResolving.run sampleLife).world ⟨⟨"gandalf"⟩, []⟩ ⟨"a"⟩ row :=
    serves_of_inMemory ⟨_, rfl⟩ hread hkey rfl ⟨_, by rw [hproject]; rfl, by decide⟩
  obtain ⟨offered, hlist, -⟩ := hoffered _ _ row d hread hdoc (hd.trans hstatus.symm) hserves
  exact ⟨hstart, hts, _, rfl, (hsearch {} {} [] rfl rfl).1, row, d, hread, hstatus, hdoc,
    hd.trans hstatus.symm, hserves, offered, hlist⟩

end Service

end Triage
