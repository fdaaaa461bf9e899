import Triage.Proofs.Service.Exits
import Triage.Proofs.Service.Reachable

/-!
# What the audit log tells about a mutation

A change of an issue or a creation leaves one event, whatever collaborators refuse on the way, and
its outcome tells what became of store and index: all of the call, all but the document, or nothing.
-/

namespace Triage

namespace Service

variable {limits : ServiceLimits} {principal : Principal} {key : IssueKey} {m : Mutation}
  {q : ManualIssueRequest} {w w' : World} {row old : Issue} {s' : Store}

/-! ## What is stored -/

/-- What a change has stored: in place of the row `old` that was read at its key the changed row,
stamped, and in the changelog what differs between the two, if anything does. -/
structure StoredChange (limits : ServiceLimits) (principal : Principal) (key : IssueKey)
    (m : Mutation) (w : World) (old row : Issue) (s' : Store) : Prop where
  read : w.read (.selectByKey key) = .ok (some old)
  key_eq : row.key = key
  row_eq : ∃ changed, m.changed limits old = .ok changed ∧
    row = changed.updated old.createdAt old.updatedAt w.clock
  writes : w.store.Writes s' [row]
  logs : w.store.Logs s' (if (old.diffs row).isEmpty then none
    else some ⟨key, principal.login, row.updatedAt, old.diffs row⟩)

/-- What a creation has stored: the requested issue under the fresh key, where no row was, and
nothing in the changelogs. -/
structure StoredIssue (principal : Principal) (q : ManualIssueRequest) (w : World) (row : Issue)
    (s' : Store) : Prop where
  row_eq : ∃ component rule, w.catalog.component? q.componentKey = some component ∧
    w.catalog.rules.get? q.ruleKey = some rule ∧
    row = (q.issue (World.nthKey w.keysDrawn) component rule principal.login).inserted w.clock
  fresh : ¬w.store.HasRow row.key
  writes : w.store.Writes s' [row]
  logs : w.store.Logs s' none

theorem Changes.stored (hw : w.store.Keyed) (h : Changes limits principal key m w row s') :
    ∃ old, StoredChange limits principal key m w old row s' := by
  obtain ⟨c, old, changed, hc, hread, hchanged, hu⟩ := h
  obtain rfl : old.key = key := Store.key_of_read hw hc hread
  have hold : changed.key = old.key := Mutation.key_of_changed_eq_ok hchanged
  have hrow := hu.row_eq c old (by rw [hold]; exact hc) (.inr hread)
  have hkey : row.key = old.key := hu.key_eq.trans hold
  have hdiffs : old.diffs row = old.diffs changed := by rw [hrow]; rfl
  refine ⟨old, Store.selectByKey_of_cell? hc hread, hkey, ⟨changed, hchanged, hrow⟩, hu.writes, ?_⟩
  rw [hdiffs, ← hkey]
  exact hu.logs

theorem StoredChange.hasRow (h : StoredChange limits principal key m w old row s') :
    w.store.HasRow key := by
  obtain ⟨c, hc, -⟩ := Store.exists_cell?_of_selectByKey h.read
  rw [Store.HasRow, hc]
  rfl

theorem Raises.stored (h : Raises principal q w row s') : StoredIssue principal q w row s' := by
  obtain ⟨component, rule, hc, hr, hi⟩ := h
  have hrow : row = (q.issue (World.nthKey w.keysDrawn) component rule principal.login).inserted
      w.clock := by simpa using hi.rows_eq
  have hfresh := hi.fresh _ (List.mem_singleton_self _)
  refine ⟨⟨component, rule, hc, hr, hrow⟩, ?_, hi.writes, hi.logs⟩
  rw [hrow]
  exact hfresh

namespace IssueCall

/-- The operation of a call that changes issues. -/
def operation? : IssueCall → Option Operation
  | change _ _ m => some m.operation
  | create _ _ => some .createManualIssue
  | reindex _ => none

/-- What the call has stored when it comes to write the document of `row`. -/
def Stored (limits : ServiceLimits) (w : World) (row : Issue) (s' : Store) : IssueCall → Prop
  | change principal key m => ∃ old, StoredChange limits principal key m w old row s'
  | create principal q => StoredIssue principal q w row s'
  | reindex key => w.read (.selectByKey key) = .ok (some row) ∧ s' = w.store

/-- What the outcome of a call that changes issues tells: which result there was, and what is in the
store and in the index after it.  The row that was stored is read back exactly if it is kept. -/
structure Told (limits : ServiceLimits) (w : World) (c : IssueCall)
    (r : Except ServiceError IssueDoc) (w' : World) (o : AuditOutcome) : Prop where
  applied_iff : o = .applied ↔ ∃ d, r = .ok d
  denied_iff : o = .denied ↔ ∃ e, r = .error e ∧ e.kind = .forbidden
  rejected_iff : o = .rejected ↔ ∃ e, r = .error e ∧
    (e.kind = .notFound ∨ e.kind = .invalidArgument ∨ e.kind = .illegalTransition)
  failed_iff : o = .failed ↔ ∃ e, r = .error e ∧
    (e.kind = .storeUnavailable ∨ e.kind = .catalogUnavailable)
  diverged_iff : o = .indexDiverged ↔ ∃ e, r = .error e ∧ e.kind = .indexUnavailable
  of_applied : o = .applied → ∃ row, r = .ok row.doc ∧ c.Stored limits w row w'.store ∧
    w'.index = w.index.put row.doc ∧
    (w'.read (.selectByKey row.key) = .ok (some row) ↔ w'.store.Keeps row)
  of_unapplied : o = .denied ∨ o = .rejected ∨ o = .failed →
    w'.store = w.store ∧ w'.index = w.index
  of_diverged : o = .indexDiverged → ∃ row, c.Stored limits w row w'.store ∧
    (w'.index = w.index ∨ w'.index = w.index.put row.doc) ∧
    (w'.read (.selectByKey row.key) = .ok (some row) ↔ w'.store.Keeps row)

/-- The outcome of a call that changes issues, by its result. -/
def outcomeOf : Except ServiceError IssueDoc → AuditOutcome
  | .ok _ => .applied
  | .error e => .ofMutationError e.kind

variable {c : IssueCall} {r : Except ServiceError IssueDoc} {e : AuditEvent} {op : Operation}

theorem outcomeOf_eq_applied : outcomeOf r = .applied ↔ ∃ d, r = .ok d := by
  cases r with
  | ok d => simp [outcomeOf]
  | error e => cases h : e.kind <;> simp [outcomeOf, AuditOutcome.ofMutationError, h]

theorem outcomeOf_eq_denied :
    outcomeOf r = .denied ↔ ∃ e, r = .error e ∧ e.kind = .forbidden := by
  cases r with
  | ok d => simp [outcomeOf]
  | error e => cases h : e.kind <;> simp [outcomeOf, AuditOutcome.ofMutationError, h]

theorem outcomeOf_eq_rejected : outcomeOf r = .rejected ↔ ∃ e, r = .error e ∧
    (e.kind = .notFound ∨ e.kind = .invalidArgument ∨ e.kind = .illegalTransition) := by
  cases r with
  | ok d => simp [outcomeOf]
  | error e => cases h : e.kind <;> simp [outcomeOf, AuditOutcome.ofMutationError, h]

theorem outcomeOf_eq_failed : outcomeOf r = .failed ↔ ∃ e, r = .error e ∧
    (e.kind = .storeUnavailable ∨ e.kind = .catalogUnavailable) := by
  cases r with
  | ok d => simp [outcomeOf]
  | error e => cases h : e.kind <;> simp [outcomeOf, AuditOutcome.ofMutationError, h]

theorem outcomeOf_eq_indexDiverged :
    outcomeOf r = .indexDiverged ↔ ∃ e, r = .error e ∧ e.kind = .indexUnavailable := by
  cases r with
  | ok d => simp [outcomeOf]
  | error e => cases h : e.kind <;> simp [outcomeOf, AuditOutcome.ofMutationError, h]

theorem Reports.outcome (hc : c.operation? = some op) (h : c.Reports r e) :
    e.call = .mutation op ∧ e.outcome = outcomeOf r := by
  cases c with
  | change principal key m =>
    obtain ⟨project, rfl⟩ := h
    cases hc
    exact ⟨rfl, by cases r <;> rfl⟩
  | create principal q =>
    obtain ⟨project, rfl⟩ := h
    cases hc
    exact ⟨rfl, by cases r <;> rfl⟩
  | reindex key => cases hc

theorem Writes.stored (hw : w.store.Keyed) (hc : c.operation? = some op)
    (h : c.Writes limits w row s') : c.Stored limits w row s' ∧ s'.Holds row := by
  cases c with
  | change principal key m =>
    obtain ⟨old, hs⟩ := Changes.stored hw h
    exact ⟨⟨old, hs⟩, hs.writes.holds row (by simp)⟩
  | create principal q =>
    have hs := Raises.stored h
    exact ⟨hs, hs.writes.holds row (by simp)⟩
  | reindex key => cases hc

/-- The outcome goes by the kind of the error alone, which tells enough because errors of the index
come after the write of the row and all others before it. -/
theorem told_of_exit (hw : w.store.Keyed) (hc : c.operation? = some op)
    (h : w.Exit (c.Writes limits w) r w'.store w'.index) : c.Told limits w r w' (outcomeOf r) := by
  refine ⟨outcomeOf_eq_applied, outcomeOf_eq_denied, outcomeOf_eq_rejected, outcomeOf_eq_failed,
    outcomeOf_eq_indexDiverged, fun ho => ?_, fun ho => ?_, fun ho => ?_⟩
  · obtain ⟨d, rfl⟩ := outcomeOf_eq_applied.1 ho
    obtain ⟨row, hrow, rfl, hx⟩ := h.of_ok
    obtain ⟨hs, hholds⟩ := Writes.stored hw hc hrow
    exact ⟨row, rfl, hs, hx, hholds.shows.selectByKey_iff⟩
  · cases r with
    | ok d => simp [outcomeOf] at ho
    | error e =>
      refine h.of_error fun he => ?_
      simp [outcomeOf, AuditOutcome.ofMutationError, he] at ho
  · obtain ⟨e, rfl, he⟩ := outcomeOf_eq_indexDiverged.1 ho
    obtain ⟨row, hrow, hx⟩ := h.of_indexUnavailable he
    obtain ⟨hs, hholds⟩ := Writes.stored hw hc hrow
    exact ⟨row, hs, hx, hholds.shows.selectByKey_iff⟩

end IssueCall

/-- A call that changes issues returns and leaves one event, whose outcome tells what happened, from
every world that can be reached and whatever the store, the index and the catalog refuse. -/
theorem outcome_tells (limits : ServiceLimits) (hw : w.Reachable) {c : IssueCall} {op : Operation}
    (hc : c.operation? = some op) (fs : List (Option Refusal)) :
    ∃ r w' e, (c.script limits).run w (refusals fs) = (.returned r, w') ∧
      w'.audit = w.audit.record w.auditStamp e ∧ e.call = .mutation op ∧
      c.Told limits w r w' e.outcome := by
  obtain ⟨r, w', hrun, h⟩ := (c.attains_script limits w).runFrom [] fs
  obtain ⟨e, hreport, haudit⟩ := h.audit
  obtain ⟨hcall, houtcome⟩ := hreport.outcome hc
  refine ⟨r, w', e, hrun, haudit, hcall, ?_⟩
  rw [houtcome]
  exact IssueCall.told_of_exit hw.keyed hc h.exit

end Service

/-- A world without issues: one project, one manual rule and an administrator. -/
def World.sample : World where
  gate := ⟨[⟨⟨"sample"⟩, .user ⟨"gandalf"⟩, .admin⟩]⟩
  catalog := (({} : Catalog).addComponent ⟨⟨"sample"⟩, ⟨"sample"⟩, ⟨"sample"⟩⟩).addRule
    ⟨⟨"manual:manualRuleKey"⟩, "Manual", true⟩

theorem World.not_hasRow_sample (key : IssueKey) : ¬World.sample.store.HasRow key :=
  Store.not_hasRow_iff.2 rfl

namespace Service

/-- The creation of an issue in the sample world. -/
def sampleCreation : IssueCall :=
  .create ⟨⟨"gandalf"⟩, []⟩ { componentKey := ⟨"sample"⟩, ruleKey := ⟨"manual:manualRuleKey"⟩ }

/-- A change of an issue in the sample world. -/
def sampleChange (key : IssueKey) : IssueCall :=
  .change ⟨⟨"gandalf"⟩, []⟩ key (.setSeverity .blocker)

/-- A creation whose document is refused by the index. -/
theorem outcome_tells_sample : World.sample.Reachable ∧
    sampleCreation.operation? = some .createManualIssue ∧
    ∃ r w' e, (sampleCreation.script {}).run World.sample
        (refusals (List.replicate 6 none ++ [some (.index (.unavailable "down"))])) =
          (.returned r, w') ∧
      w'.audit = World.sample.audit.record World.sample.auditStamp e ∧
      e.call = .mutation .createManualIssue ∧
      sampleCreation.Told {} World.sample r w' e.outcome := by
  have hreachable : World.sample.Reachable := .start World.not_hasRow_sample
  exact ⟨hreachable, rfl, outcome_tells {} hreachable rfl _⟩

end Service

end Triage
