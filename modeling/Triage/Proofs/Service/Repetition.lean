import Triage.Proofs.Service.Mirror
import Triage.Proofs.Service.Origin
import Triage.Proofs.Service.Schedule
import Triage.Proofs.Store.Refinement

/-!
# Changes made again

A change of an issue succeeds on grounds that its success leaves in place: the lock, the row, the
project, the grant and what it names in the catalog.  So a change that says what the new values are
succeeds again, and finds them there: the row only gets a later stamp.
-/

namespace Triage

/-! ## What a store takes -/

namespace Store

variable {s : Store} {i old : Issue} {now : Timestamp} {user : Login}

/-- Whether the store has room for the row. -/
def Takes : Store → Issue → Prop
  | .memory _, _ => True
  | .database _, row => (jsonText row).toUTF8.size ≤ maxPayloadBytes

theorem update_memory {m : MemoryStore} (h : (Store.memory m).Reads old) (hkey : i.key = old.key) :
    ((Store.memory m).perform now (.update i)).1 =
      .ok (i.updated old.createdAt old.updatedAt now) := by
  have hold : m.issues.get? i.key = some old := by
    rw [hkey]
    exact Except.ok.inj (h.selectByKey now)
  simp [perform, MemoryStore.perform, MemoryStore.update, hold]

theorem update_database {db : Database} (h : (Store.database db).Reads old)
    (hkey : i.key = old.key)
    (hsize : (jsonText (i.updated old.createdAt old.updatedAt now)).toUTF8.size ≤ maxPayloadBytes) :
    ((Store.database db).perform now (.update i)).1 =
      .ok (i.updated old.createdAt old.updatedAt now) := by
  obtain ⟨c, hc, hread⟩ := h
  obtain ⟨r, hr, rfl⟩ := Option.map_eq_some_iff.1 hc
  have hpass : r.Passes old.key old := IssueRow.passes_iff.2 (bind_eq_ok.1 (mapError_eq_ok.1 hread))
  obtain ⟨t, ht, hget⟩ := Database.exists_table_of_get? hr
  have htable : db.issueTable = .ok t := Database.issueTable_eq_ok.2 ht
  have hrow : (Database.Transaction.row? i.key).run db = .ok (some r, db) := by
    unfold Database.Transaction.row?
    simp [htable, hkey, hget]
  rw [hpass.createdAt_eq, hpass.updatedAt_eq] at hsize ⊢
  generalize hstamped : i.updated r.createdAt r.updatedAt now = row at hsize ⊢
  have hof : (liftM (IssueRow.ofIssue row) : Database.Transaction IssueRow).run db =
      .ok (.of row, db) := by
    rw [IssueRow.ofIssue_eq_of_size_le hsize]
    rfl
  have hset : (Database.Transaction.setRow row.key (.of row)).run db =
      .ok ((), { db with issues := some (t.insert row.key (.of row)) }) := by
    unfold Database.Transaction.setRow
    simp [htable]
  have hrun : (Database.Transaction.updateIssue now i).run db =
      .ok (row, { db with issues := some (t.insert row.key (.of row)) }) := by
    rw [Database.Transaction.updateIssue, run_bind_of_eq_ok hrow]
    dsimp only
    rw [hstamped]
    exact (run_bind_of_eq_ok hof).trans (run_bind_of_eq_ok hset)
  refine mapError_eq_ok.2 ?_
  change (db.commit (Database.Transaction.updateIssue now i)).1 = .ok row
  rw [Database.commit, hrun]

/-- An update without differences succeeds where the row is read and the store has room. -/
theorem Reads.updates (h : s.Reads old) (hkey : i.key = old.key)
    (htakes : s.Takes (i.updated old.createdAt old.updatedAt now)) (user : Login) :
    (s.perform now (.updateWithChange i user [])).1 =
      .ok (i.updated old.createdAt old.updatedAt now) := by
  rw [← perform_update]
  cases s with
  | memory m => exact update_memory h hkey
  | database db => exact update_database h hkey htakes

end Store

/-! ## The grounds of a change -/

/-- The row with a later stamp of update. -/
def Issue.touched (row : Issue) (now : Timestamp) : Issue :=
  { row with updatedAt := row.updatedAt.nextAfter now }

/-- No field differs from itself. -/
theorem Issue.diffs_self (i : Issue) : i.diffs i = [] :=
  List.filterMap_eq_nil_iff.2 fun _ _ => if_pos rfl

namespace Service

open World Attempt Schedule

variable {limits : ServiceLimits} {principal : Principal} {key : IssueKey} {m : Mutation}
  {w w' : World} {i j old row : Issue}

/-- Whether the catalog knows the user or the plan that the change names, if it names one. -/
def Mutation.Known (c : Catalog) : Mutation → Prop
  | .assign login => ∀ l : Login, identifier? login = some l → ∃ u, c.users.get? l = some u
  | .plan key => ∀ k : ActionPlanKey, identifier? key = some k → ∃ p, c.actionPlans.get? k = some p
  | .transition _ | .setSeverity _ | .setTags _ => True

/-- What a change of a row needs besides: the lock of its key is not poisoned, the row is read
there, its project is known and permits the change, and the catalog knows what the change names. -/
structure Grounds (principal : Principal) (key : IssueKey) (m : Mutation) (w : World)
    (row : Issue) : Prop where
  isOpen : w.locks.isPoisoned key = false
  read : w.read (.selectByKey key) = .ok (some row)
  permits : ∃ project, w.catalog.project? row.projectUuid = some project ∧
    w.gate.permits principal m.operation project.projectKey = true
  known : m.Known w.catalog

/-! ### Success has grounds -/

theorem attains_alone_of_forall {α : Type} {x : Script α} {Q : α → World → Prop}
    (hQ : ∀ a w, Q a w) : x.Attains alone Q w := by
  induction x generalizing w with
  | done a => exact hQ a w
  | ask c next ih => exact ⟨trivial, fun r w' _ => ih r⟩

theorem attains_findProject_known {uuid : ProjectUuid}
    {Q : Except ServiceError ProjectKey → World → Prop}
    (hok : ∀ project, w.catalog.project? uuid = some project → Q (.ok project.projectKey) w)
    (herr : ∀ e, Q (.error e) w) : (findProject uuid).Attains alone Q w := by
  refine attains_bind.2 (attains_consult (consults_alone w) (fun found hfound => ?_)
    fun e => herr _)
  exact attains_bind.2 (attains_found_of (fun p hp => hok p (hfound.symm.trans hp)) (herr _))

theorem attains_authorize_granted {op : Operation} {project : ProjectKey}
    {Q : Except ServiceError Unit → World → Prop}
    (hok : w.gate.permits principal op project = true → Q (.ok ()) w)
    (herr : Q (.error .forbidden) w) : (authorize principal op project).Attains alone Q w := by
  refine attains_authorize.2 ⟨trivial, fun r w' h => ?_⟩
  obtain ⟨rfl, rfl⟩ := h.permits
  split_ifs with hr
  · exact hok hr
  · exact herr

theorem Mutation.attains_apply_alone {Q : Except ServiceError Issue → World → Prop}
    (hok : ∀ j, m.Known w.catalog → Q (.ok j) w) (herr : ∀ e, Q (.error e) w) :
    (m.apply limits i).Attains alone Q w := by
  have hpure (hknown : m.Known w.catalog) (r : Except ServiceError Issue) : Q r w := by
    rcases r with e | j
    · exact herr e
    · exact hok j hknown
  cases m with
  | transition t => exact hpure trivial _
  | setSeverity s => exact hpure trivial _
  | setTags entries => exact hpure trivial _
  | assign login =>
    simp only [apply]
    rcases hl : (identifier? login : Option Login) with _ | l
    · refine hok _ fun l' hl' => ?_
      cases hl.symm.trans hl'
    · refine attains_bind.2 (attains_consult (consults_alone w) (fun found hfound => ?_)
        fun e => herr _)
      refine attains_bind.2 (attains_found_of (fun u hu => hok _ fun l' hl' => ?_) (herr _))
      obtain rfl := Option.some.inj (hl.symm.trans hl')
      exact ⟨u, hfound.symm.trans hu⟩
  | plan key =>
    simp only [apply]
    rcases hk : (identifier? key : Option ActionPlanKey) with _ | k
    · refine hok _ fun k' hk' => ?_
      cases hk.symm.trans hk'
    · refine attains_bind.2 (attains_consult (consults_alone w) (fun found hfound => ?_)
        fun e => herr _)
      refine attains_bind.2 (attains_found_of (fun p hp => hok _ fun k' hk' => ?_) (herr _))
      obtain rfl := Option.some.inj (hk.symm.trans hk')
      exact ⟨p, hfound.symm.trans hp⟩

/-- A change of an issue that succeeds, whatever was refused on the way, had its grounds. -/
theorem attains_mutate_grounds (limits : ServiceLimits) (principal : Principal) (key : IssueKey)
    (m : Mutation) (w : World) :
    (mutate limits principal key m).Attains alone
      (fun r _ => ∀ d, r = .ok d → ∃ row, Grounds principal key m w row) w := by
  let Granted (r : Except ServiceError IssueDoc) (_ : World) : Prop :=
    ∀ d, r = .ok d → ∃ row, Grounds principal key m w row
  have refused (e : ServiceError) (w' : World) : Granted (.error e) w' := fun d hd => nomatch hd
  refine Script.attains_bind.2 (Script.Attains.mono
    (Q := fun mutated w' => Granted mutated.result w') (fun mutated w' h => ?_) ?_)
  · exact Script.attains_bind.2 (Script.attains_single.2 ⟨trivial, fun _ _ _ => h⟩)
  refine Script.attains_bind.2 (Script.attains_single.2 ⟨trivial, fun entered w₁ h => ?_⟩)
  obtain ⟨rfl, rfl⟩ := h.enter
  rw [LockTable.enter_fst]
  cases hopen : w.locks.isPoisoned key with
  | true => exact refused _ w
  | false =>
    refine Script.attains_bind.2 (Script.Attains.mono
      (Q := fun mutated w' => Granted mutated.result w') (fun mutated w' h => ?_) ?_)
    · exact Script.attains_bind.2 (Script.attains_single.2 ⟨trivial, fun _ _ _ => h⟩)
    refine attains_inProject (Q := Granted)
      (attains_bind.2 (attains_loadIssue (fun c row hc hread => ?_) fun e _ => refused e w))
    refine attains_bind.2 (attains_findProject_known (fun project hproject => ?_)
      fun e => refused e w)
    refine attains_bind.2 (attains_authorize_granted (fun hpermits => ?_) (refused _ w))
    refine attains_bind.2 (Mutation.attains_apply_alone (fun changed hknown => ?_)
      fun e => refused e w)
    have hgrounds : Grounds principal key m w row :=
      ⟨hopen, Store.selectByKey_of_cell? hc hread, ⟨project, hproject, hpermits⟩, hknown⟩
    exact attains_alone_of_forall fun _ _ _ _ => ⟨row, hgrounds⟩

/-! ### Grounds are enough -/

theorem Mutation.attains_apply_known (hknown : m.Known w.catalog) (hj : m.changed limits i = .ok j)
    {Q : Except ServiceError Issue → Schedule → Prop} (hQ : Q (.ok j) ⟨w, []⟩) :
    (m.apply limits i).Attains scheduled Q ⟨w, []⟩ := by
  have hchanged : Q (m.changed limits i) ⟨w, []⟩ := hj ▸ hQ
  cases m with
  | transition t => exact hchanged
  | setSeverity s => exact hchanged
  | setTags entries => exact hchanged
  | assign login =>
    simp only [apply]
    rcases hl : (identifier? login : Option Login) with _ | l
    · rwa [changed, hl] at hchanged
    · obtain ⟨u, hu⟩ := hknown l hl
      refine attains_bind.2 (attains_catalog_scheduled rfl (attains_bind.2 ?_))
      refine attains_found.2 ⟨fun _ _ => ?_, fun hnone => ?_⟩
      · rwa [changed, hl] at hchanged
      · cases hu.symm.trans hnone
  | plan key =>
    simp only [apply]
    rcases hk : (identifier? key : Option ActionPlanKey) with _ | k
    · rwa [changed, hk] at hchanged
    · obtain ⟨p, hp⟩ := hknown k hk
      refine attains_bind.2 (attains_catalog_scheduled rfl (attains_bind.2 ?_))
      refine attains_found.2 ⟨fun _ _ => ?_, fun hnone => ?_⟩
      · rwa [changed, hk] at hchanged
      · cases hp.symm.trans hnone

/-- A change that has its grounds, and comes to a row which the store takes, succeeds. -/
theorem Grounds.run_mutate {stored : Issue} (h : Grounds principal key m w row)
    (hj : m.changed limits row = .ok j)
    (hstored : w.read (.updateWithChange j principal.login (row.diffs j)) = .ok stored) :
    ∃ w', (mutate limits principal key m).run w [] = (.returned (.ok stored.doc), w') := by
  obtain ⟨project, hproject, hpermits⟩ := h.permits
  have hmutate : (mutate limits principal key m).Attains scheduled
      (fun r _ => r = .ok stored.doc) ⟨w, []⟩ := by
    refine attains_mutate_of_found (spares_nil w 3) h.isOpen h.read hproject ?_
    refine attains_bind.2 (attains_authorize_permitted hpermits (attains_bind.2 ?_))
    refine Mutation.attains_apply_known (w := (w.perform (.enter key)).2) h.known hj ?_
    refine attains_bind.2 (attains_store_scheduled rfl hstored ?_)
    refine Script.Attains.scheduled (Script.Attains.mono ?_ attains_indexRow_undisturbed)
    exact fun _ _ hr => hr.1
  obtain ⟨_, s, hrun, rfl⟩ := hmutate.runFrom_scheduled []
  exact ⟨s.world, hrun⟩

/-! ## Changes made again -/

/-- Whether rows, changelogs, locks, grants and catalog are the same. -/
structure Resembles (w v : World) : Prop where
  store : v.store = w.store
  locks : v.locks = w.locks
  gate : v.gate = w.gate
  catalog : v.catalog = w.catalog

/-- No step changes grants or catalog. -/
theorem gate_catalog_respond (w : World) (f : Option Failure) (c : Call) :
    (w.respond f c).2.gate = w.gate ∧ (w.respond f c).2.catalog = w.catalog := by
  rcases w.respond_snd f c with heq | heq <;> rw [heq]
  · exact ⟨rfl, rfl⟩
  · cases c <;> exact ⟨rfl, rfl⟩

/-- A change that says what the new values are finds them in the row that it has made. -/
theorem Mutation.Sets.changed_eq (h : m.Sets limits old row) (hm : ∀ t, m ≠ .transition t)
    (effort : Option Binary64) :
    m.changed limits { row with effortToFix := effort } =
      .ok { row with effortToFix := effort } := by
  cases m with
  | transition t => exact absurd rfl (hm t)
  | assign login =>
    have hassignee : identifier? login = row.assignee := (congrArg (·.assignee) h).symm
    rw [changed, hassignee]
  | plan key =>
    have hplan : identifier? key = row.actionPlanKey := (congrArg (·.actionPlanKey) h).symm
    rw [changed, hplan]
  | setSeverity s =>
    have hseverity : s = row.severity := (congrArg (·.severity) h).symm
    rw [changed, hseverity]
  | setTags entries =>
    obtain ⟨tags, htags, h⟩ := h
    have hrow : tags = row.tags := (congrArg (·.tags) h).symm
    simp only [changed, htags, hrow]

/-- What a change that is made again comes to, if the store takes the row with a later stamp: it
succeeds, the row gets that stamp, and all else is as it was, with nothing new in the changelogs. -/
def Repeats (limits : ServiceLimits) (principal : Principal) (key : IssueKey) (m : Mutation)
    (v : World) (row : Issue) : Prop :=
  v.store.Takes (row.touched v.clock) → ∃ w', (mutate limits principal key m).run v [] =
      (.returned (.ok (row.touched v.clock).doc), w') ∧
    Framed limits key m v row (row.touched v.clock) w' ∧
    ∀ k, w'.store.entries k = v.store.entries k

/-- A change of a row in which there is nothing to change. -/
theorem Grounds.repeats (h : Grounds principal key m w row) (hw : w.Reachable)
    (hrow : m.changed limits row = .ok row) : Repeats limits principal key m w row := by
  intro htakes
  have hreads := Store.reads_of_selectByKey hw.keyed h.read
  have hstored : w.read (.updateWithChange row principal.login (row.diffs row)) =
      .ok (row.touched w.clock) := by
    rw [Issue.diffs_self]
    exact hreads.updates rfl htakes principal.login
  obtain ⟨w', hrun⟩ := h.run_mutate hrow hstored
  have hrefused : (mutate limits principal key m).run w (refusals []) = _ := hrun
  obtain ⟨old, row', -, hs, hframed⟩ := framed_of_run hw hrefused
  obtain rfl : row = old := Option.some.inj (Except.ok.inj (h.read.symm.trans hs.read))
  obtain ⟨j, hj, rfl⟩ := hs.row_eq
  obtain rfl : row = j := Except.ok.inj (hrow.symm.trans hj)
  have hdiffs : row.diffs (row.touched w.clock) = [] := row.diffs_self
  have hlogs := hs.logs
  rw [show row.updated row.createdAt row.updatedAt w.clock = row.touched w.clock from rfl, hdiffs]
    at hlogs
  exact ⟨w', hrun, hframed, fun k => hlogs.others k nofun⟩

/-- After a change that has succeeded the same change has its grounds, in any world with the same
rows, locks, grants and catalog, and finds nothing to change. -/
theorem repeats_of_run (hw : w.Reachable) {fs : List (Option Refusal)} {d : IssueDoc}
    (hrun : (mutate limits principal key m).run w (refusals fs) = (.returned (.ok d), w'))
    (hm : ∀ t, m ≠ .transition t) {v : World} (hv : Resembles w' v) :
    ∃ row, v.read (.selectByKey key) = .ok (some row) ∧ Repeats limits principal key m v row := by
  obtain ⟨old, hold⟩ := (attains_mutate_grounds limits principal key m w).of_run hrun d rfl
  have hends : (IssueCall.change principal key m).Ends limits w (.ok d) w' :=
    ((IssueCall.change principal key m).attains_script limits w).of_run hrun
  obtain ⟨old', row, -, hs, hframed⟩ := framed_of_run hw hrun
  obtain rfl : old = old' := Option.some.inj (Except.ok.inj (hold.read.symm.trans hs.read))
  have hreachable : w'.Reachable := Script.keeps_of_run (fun _ f c hu => hu.respond f c)
    (fun _ held hu => hu.abandon held) hw hrun
  obtain ⟨hgate, hcatalog⟩ : w'.gate = w.gate ∧ w'.catalog = w.catalog :=
    Script.keeps_of_run (P := fun u => u.gate = w.gate ∧ u.catalog = w.catalog)
      (fun u f c hu => (gate_catalog_respond u f c).imp (·.trans hu.1) (·.trans hu.2))
      (fun _ _ hu => hu) ⟨rfl, rfl⟩ hrun
  obtain ⟨effort, hread, -⟩ := hframed.reads
  have hreads := Store.reads_of_selectByKey hreachable.keyed hread
  obtain ⟨project, hproject, hpermits⟩ := hold.permits
  have huuid : row.projectUuid = old.projectUuid :=
    congrArg Origin.projectUuid hframed.sets.origin_eq.1
  have hgrounds : Grounds principal key m v { row with effortToFix := effort } := by
    refine ⟨?_, ?_, ⟨project, ?_, ?_⟩, ?_⟩
    · rw [hv.locks, hends.locks]
      exact (LockTable.isPoisoned_passed hold.isOpen key).trans hold.isOpen
    · rw [World.read, hv.store, ← hs.key_eq]
      exact hreads.selectByKey v.clock
    · rw [hv.catalog, hcatalog, huuid]
      exact hproject
    · rw [hv.gate, hgate]
      exact hpermits
    · rw [hv.catalog, hcatalog]
      exact hold.known
  exact ⟨_, hgrounds.read, hgrounds.repeats (hreachable.turn hv.store)
    (hframed.sets.changed_eq hm effort)⟩

/-- From every world that can be reached: a change that succeeds, whatever was refused on the way,
gives the row new values in the fields that it is about and a later stamp, with its document, and
leaves the rows, changelogs and documents of all other keys.  One that says what the new values are
can be made again, and then finds them there.  And over any run of calls of any kind, whatever fails
and breaks off, a row that is read keeps its origin.  Its effort stays where it is read back as it
is. -/
theorem changes_keep_to_their_fields (limits : ServiceLimits) (hw : w.Reachable) (key : IssueKey) :
    (∀ (principal : Principal) (m : Mutation) (fs : List (Option Refusal)) (d : IssueDoc)
      (w' : World), (mutate limits principal key m).run w (refusals fs) = (.returned (.ok d), w') →
      (∃ old row, d = row.doc ∧ Framed limits key m w old row w') ∧
      ((∀ t, m ≠ .transition t) → ∀ v, Resembles w' v → ∃ row,
        v.read (.selectByKey key) = .ok (some row) ∧ Repeats limits principal key m v row)) ∧
    ∀ (ι : Type) [DecidableEq ι] (calls : ι → AnyCall) (ts ts' : List (ShiftTurn ι)) (row : Issue),
      ((Shift.start limits w calls).run ts).world.read (.selectByKey key) = .ok (some row) →
      ∃ row', ((Shift.start limits w calls).run (ts ++ ts')).world.read (.selectByKey key) =
          .ok (some row') ∧ row'.origin = row.origin ∧
        (Shift.Exacting key w calls (ts ++ ts') → row'.effortToFix = row.effortToFix) := by
  refine ⟨fun principal m fs d w' hrun => ⟨?_, fun hm v hv => repeats_of_run hw hrun hm hv⟩, ?_⟩
  · obtain ⟨old, row, hd, -, hframed⟩ := framed_of_run hw hrun
    exact ⟨old, row, hd, hframed⟩
  · exact fun ι _ calls ts ts' row hread =>
      Shift.origin_lasts limits hw.keyed calls ts ts' hread

/-- The sample world with an issue. -/
def sampleStored : World :=
  (World.sample.respond none (.store (.insert [sampleIssue "a"]))).2

/-- Its severity is changed and changed again, and it is changed in a run. -/
theorem changes_keep_to_their_fields_sample : sampleStored.Reachable ∧
    (∃ d w', (mutate {} ⟨⟨"gandalf"⟩, []⟩ ⟨"a"⟩ (.setSeverity .blocker)).run sampleStored
        (refusals []) = (.returned (.ok d), w') ∧
      (∃ old row, d = row.doc ∧ Framed {} ⟨"a"⟩ (.setSeverity .blocker) sampleStored old row w') ∧
      ∃ (row : Issue) (w'' : World), (mutate {} ⟨⟨"gandalf"⟩, []⟩ ⟨"a"⟩ (.setSeverity .blocker)).run
          w' [] = (.returned (.ok (row.touched w'.clock).doc), w'') ∧
        ∀ k, w''.store.entries k = w'.store.entries k) ∧
    ∃ row row', sampleStored.read (.selectByKey ⟨"a"⟩) = .ok (some row) ∧
      ((Shift.start {} sampleStored fun _ : Unit => .writing (.issue (sampleChange ⟨"a"⟩))).run
        (List.replicate 9 (.step () none))).world.read (.selectByKey ⟨"a"⟩) = .ok (some row') ∧
      row'.origin = row.origin := by
  have hreachable : sampleStored.Reachable := .respond (.start World.not_hasRow_sample) _ _
  obtain ⟨hchange, hrun⟩ := changes_keep_to_their_fields {} hreachable ⟨"a"⟩
  obtain ⟨d, w', hdone, m, hmemory⟩ : ∃ d w',
      (mutate {} ⟨⟨"gandalf"⟩, []⟩ ⟨"a"⟩ (.setSeverity .blocker)).run sampleStored (refusals []) =
        (.returned (.ok d), w') ∧ w'.InMemory := ⟨_, _, rfl, _, rfl⟩
  obtain ⟨hframed, hrepeats⟩ := hchange _ _ _ _ _ hdone
  obtain ⟨row, -, hrepeat⟩ := hrepeats nofun w' ⟨rfl, rfl, rfl, rfl⟩
  have htakes : w'.store.Takes (row.touched w'.clock) := by
    rw [hmemory]
    trivial
  obtain ⟨w'', hagain, -, hentries⟩ := hrepeat htakes
  obtain ⟨stored, hread⟩ : ∃ stored, sampleStored.read (.selectByKey ⟨"a"⟩) = .ok (some stored) :=
    ⟨_, rfl⟩
  obtain ⟨row', hread', horigin, -⟩ := hrun Unit
    (fun _ => .writing (.issue (sampleChange ⟨"a"⟩))) [] (List.replicate 9 (.step () none)) stored
    hread
  exact ⟨hreachable, ⟨d, w', hdone, hframed, row, w'', hagain, hentries⟩, stored, row', hread,
    hread', horigin⟩

end Service

end Triage
