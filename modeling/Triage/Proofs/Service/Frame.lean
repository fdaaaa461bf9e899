import Triage.Proofs.Service.Mirror
import Triage.Proofs.Store.Reread

/-!
# What a change of an issue leaves as it was

A change of an issue gives the row new values in the fields that it is about, and a new stamp of
update.  All else in the row stays, and with it where the issue came from; so do the rows,
changelogs and documents of all other issues.
-/

namespace Triage

/-- The fields of an issue that tell where it came from, but for its effort. -/
structure Origin where
  key : IssueKey
  ruleKey : RuleKey
  componentKey : ComponentKey
  componentUuid : ComponentUuid
  projectUuid : ProjectUuid
  line : Option UInt32
  message : Option String
  reporter : Option Login
  createdAt : Timestamp
deriving DecidableEq

/-- Where the issue came from. -/
def Issue.origin (i : Issue) : Origin :=
  ⟨i.key, i.ruleKey, i.componentKey, i.componentUuid, i.projectUuid, i.line, i.message, i.reporter,
    i.createdAt⟩

namespace Store

variable {s : Store} {i j : Issue} {now : Timestamp} {key : IssueKey}

/-- Whether the effort is read back from the store as it is. -/
def IsExact : Store → Option Binary64 → Prop
  | .memory _, _ => True
  | .database _, effort => ∀ x ∈ effort, x.Exact

theorem isExact_perform (s : Store) (now : Timestamp) (c : StoreCall) (effort : Option Binary64) :
    (s.perform now c).2.IsExact effort ↔ s.IsExact effort := by
  cases s <;> rfl

/-- Whether the issue is read under its key. -/
def Reads (s : Store) (i : Issue) : Prop := ∃ c, s.cell? i.key = some c ∧ c.read i.key = .ok i

theorem Reads.selectByKey (h : s.Reads i) (now : Timestamp) :
    (s.perform now (.selectByKey i.key)).1 = .ok (some i) := by
  obtain ⟨c, hc, hread⟩ := h
  exact selectByKey_of_cell? hc hread

theorem reads_of_selectByKey (hs : s.Keyed)
    (h : (s.perform now (.selectByKey key)).1 = .ok (some i)) : s.Reads i := by
  obtain rfl := key_of_selectByKey hs h
  exact exists_cell?_of_selectByKey h

theorem Reads.hasRow (h : s.Reads i) : s.HasRow i.key := by
  obtain ⟨c, hc, -⟩ := h
  rw [HasRow, hc]
  rfl

theorem Reads.unique (hi : s.Reads i) (hj : s.Reads j) (h : i.key = j.key) : i = j := by
  obtain ⟨c, hc, hread⟩ := hi
  obtain ⟨c', hc', hread'⟩ := hj
  rw [h, hc', Option.some.injEq] at hc
  rw [h, ← hc, hread'] at hread
  exact (Except.ok.inj hread).symm

/-- A row is read as the issue that it holds, with the effort as it is read back. -/
theorem Holds.exists_reads (h : s.Holds i) : ∃ effort, s.Reads { i with effortToFix := effort } ∧
    (s.IsExact i.effortToFix → effort = i.effortToFix) := by
  obtain ⟨c, hc, hi⟩ := h
  cases s with
  | memory m =>
    obtain ⟨j, -, rfl⟩ := Option.map_eq_some_iff.1 hc
    obtain rfl : j = i := hi
    exact ⟨j.effortToFix, ⟨.issue j, hc, rfl⟩, fun _ => rfl⟩
  | database db =>
    obtain ⟨r, -, rfl⟩ := Option.map_eq_some_iff.1 hc
    have hpass := IssueRow.passes_iff.1 (IssueRow.passes_reread hi)
    refine ⟨i.reread.effortToFix, ⟨.row r, hc, mapError_eq_ok.2 (bind_eq_ok.2 hpass)⟩, fun h => ?_⟩
    rw [Issue.reread_eq_self_iff.2 h]

end Store

/-- No step changes which efforts are read back as they are. -/
theorem World.isExact_respond (w : World) (f : Option Failure) (c : Call)
    (effort : Option Binary64) :
    (w.respond f c).2.store.IsExact effort ↔ w.store.IsExact effort := by
  have hperform : (w.perform c).2.store.IsExact effort ↔ w.store.IsExact effort := by
    cases c with
    | store c => exact w.store.isExact_perform w.clock c effort
    | index | catalog | permits | freshKey | enter | leave | record => rfl
  rcases w.respond_snd f c with heq | heq <;> rw [heq]
  exact hperform

namespace Service

variable {limits : ServiceLimits} {principal : Principal} {key : IssueKey} {m : Mutation}
  {w w' : World} {old row j : Issue}

namespace Mutation

/-- Whether the row is the old one with the fields set that the change is about, and with another
stamp of update. -/
def Sets (limits : ServiceLimits) (old row : Issue) : Mutation → Prop
  | .transition t => ∃ s, Workflow.apply ⟨old.status, old.resolution⟩ t = .ok s ∧
    row = { old with
      status := s.status, resolution := s.resolution, updatedAt := row.updatedAt }
  | .assign login =>
    row = { old with assignee := identifier? login, updatedAt := row.updatedAt }
  | .plan key =>
    row = { old with actionPlanKey := identifier? key, updatedAt := row.updatedAt }
  | .setSeverity s => row = { old with severity := s, updatedAt := row.updatedAt }
  | .setTags entries => ∃ tags, Tags.normalize entries limits.maxTagsPerIssue = .ok tags ∧
    row = { old with tags := tags, updatedAt := row.updatedAt }

theorem sets_of_changed (h : m.changed limits old = .ok j) (stamp : Timestamp) :
    m.Sets limits old { j with updatedAt := stamp } := by
  cases m with
  | transition t =>
    simp only [changed, applyTransition] at h
    split at h <;> cases h
    next s hs => exact ⟨s, hs, rfl⟩
  | setTags entries =>
    simp only [changed] at h
    split at h <;> cases h
    next tags htags => exact ⟨tags, htags, rfl⟩
  | assign | plan | setSeverity =>
    cases h
    rfl

/-- A change leaves where the issue came from. -/
theorem Sets.origin_eq (h : m.Sets limits old row) :
    row.origin = old.origin ∧ row.effortToFix = old.effortToFix := by
  cases m with
  | transition | setTags =>
    obtain ⟨_, -, h⟩ := h
    rw [h]
    exact ⟨rfl, rfl⟩
  | assign | plan | setSeverity =>
    rw [show row = _ from h]
    exact ⟨rfl, rfl⟩

theorem origin_of_changed (h : m.changed limits old = .ok j) :
    j.origin = old.origin ∧ j.effortToFix = old.effortToFix :=
  (sets_of_changed h j.updatedAt).origin_eq

theorem sets_of_updated (h : m.changed limits old = .ok j) (now : Timestamp) :
    m.Sets limits old (j.updated old.createdAt old.updatedAt now) := by
  have hcreated : j.createdAt = old.createdAt :=
    congrArg Origin.createdAt (origin_of_changed h).1
  have hrow : j.updated old.createdAt old.updatedAt now =
      { j with updatedAt := old.updatedAt.nextAfter now } := by
    rw [Issue.updated, ← hcreated]
  rw [hrow]
  exact sets_of_changed h _

end Mutation

/-- What a successful change of the issue at a key comes to: in place of the row that was read there
one that differs from it as the change asks for, its document, and everything under all other keys
as it was. -/
structure Framed (limits : ServiceLimits) (key : IssueKey) (m : Mutation) (w : World)
    (old row : Issue) (w' : World) : Prop where
  read : w.read (.selectByKey key) = .ok (some old)
  sets : m.Sets limits old row
  later : row.updatedAt = old.updatedAt.nextAfter w.clock
  holds : w'.store.Holds row
  reads : ∃ effort, w'.read (.selectByKey key) = .ok (some { row with effortToFix := effort }) ∧
    (w.store.IsExact old.effortToFix → effort = old.effortToFix)
  doc : w'.index.get? key = some row.doc
  cells : ∀ k, k ≠ key → w'.store.cell? k = w.store.cell? k
  entries : ∀ k, k ≠ key → w'.store.entries k = w.store.entries k
  docs : ∀ k, k ≠ key → w'.index.get? k = w.index.get? k

/-- What a change has stored, with its document, is framed. -/
theorem StoredChange.framed {s' : Store}
    (h : StoredChange limits principal key m w old row s') (hstore : w'.store = s')
    (hexact : ∀ effort, w'.store.IsExact effort ↔ w.store.IsExact effort)
    (hindex : w'.index = w.index.put row.doc) : Framed limits key m w old row w' := by
  subst hstore
  obtain ⟨j, hj, hrow⟩ := h.row_eq
  have hsets : m.Sets limits old row := hrow ▸ Mutation.sets_of_updated hj w.clock
  have hholds : w'.store.Holds row := h.writes.holds row List.mem_cons_self
  obtain ⟨effort, hreads, heffort⟩ := hholds.exists_reads
  rw [hsets.origin_eq.2] at heffort
  refine ⟨h.read, hsets, hrow ▸ rfl, hholds, ⟨effort, ?_, fun h => heffort ((hexact _).2 h)⟩, ?_,
    fun k hk => h.writes.others k ?_, fun k hk => h.logs.others k ?_, fun k hk => ?_⟩
  · rw [← h.key_eq]
    exact hreads.selectByKey w'.clock
  · rw [hindex, ← h.key_eq]
    exact Index.get?_put_self w.index row.doc
  · simpa [h.key_eq] using Ne.symm hk
  · split_ifs
    · simp
    · simpa using Ne.symm hk
  · rw [hindex, Index.get?_put, if_neg]
    exact fun heq => hk (heq.symm.trans h.key_eq)

/-- A change that succeeds, whatever was refused on the way, stores what it should and is framed. -/
theorem framed_of_run (hw : w.Reachable) {fs : List (Option Refusal)} {d : IssueDoc}
    (hrun : (mutate limits principal key m).run w (refusals fs) = (.returned (.ok d), w')) :
    ∃ old row, d = row.doc ∧ StoredChange limits principal key m w old row w'.store ∧
      Framed limits key m w old row w' := by
  have hends : (IssueCall.change principal key m).Ends limits w (.ok d) w' :=
    ((IssueCall.change principal key m).attains_script limits w).of_run hrun
  obtain ⟨old, row, hs, hd, hindex⟩ := hends.changed hw.keyed
  have hkind (effort : Option Binary64) : w'.store.IsExact effort ↔ w.store.IsExact effort :=
    Script.keeps_of_run (P := fun u => u.store.IsExact effort ↔ w.store.IsExact effort)
      (fun u f c hu => (u.isExact_respond f c effort).trans hu) (fun u held hu => hu) Iff.rfl hrun
  exact ⟨old, row, hd, hs, hs.framed rfl hkind hindex⟩

end Service

end Triage
