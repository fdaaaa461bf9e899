import Triage.Proofs.Service.Acceptance
import Triage.Proofs.Service.Repetition
import Triage.Proofs.Store.Batches
import Triage.Proofs.Store.Readback

/-!
# Manual issues from end to end

A creation succeeds just if its request is accepted and the store has room for the row, under
whichever fresh key.  Then one row and its document are added, with all their fields as asked for,
and one event; else the first stage that fails is the error, and only the event is left.
-/

namespace Triage

/-! ## One new row -/

namespace Store

variable {s : Store} {i : Issue} {now : Timestamp}

/-- The error of a store that has no room for the row. -/
def tooLarge (row : Issue) : StoreError :=
  (DatabaseError.tooLarge maxPayloadBytes (Payload.size row)).toStoreError

theorem takes_iff : s.Takes (i.inserted now) ↔
    ∀ n ∈ s.sizes now (.insert [i]), n ≤ maxPayloadBytes := by
  cases s with
  | memory m => simp [Takes, sizes]
  | database db =>
    rw [Takes, Payload.size_toUTF8_jsonText]
    simp [sizes]

theorem firstTaken_single {j : Issue} (h : s.FirstTaken [i] j) : s.HasRow i.key := by
  obtain ⟨_ | ⟨b, before⟩, after, heq, htaken, -⟩ := h
  · obtain ⟨rfl, -⟩ := List.cons.inj heq
    exact htaken.resolve_right (by simp)
  · simp at heq

/-- A row under a free key is stored if the store has room for it, and refused otherwise. -/
theorem insert_single_of_free (hs : s.HasTables) (hfree : ¬s.HasRow i.key) (now : Timestamp) :
    (s.Takes (i.inserted now) ∧
      ∃ s', s.perform now (.insert [i]) = (.ok [i.inserted now], s')) ∨
    (¬s.Takes (i.inserted now) ∧
      s.perform now (.insert [i]) = (.error (tooLarge (i.inserted now)), s)) := by
  rcases insert_cons s now i with ⟨e, hrefused⟩ | ⟨s', hstored, -⟩
  · refine .inr ?_
    have herror := hrefused []
    have hdenies := denies_insert_single (congrArg Prod.fst herror)
    cases hdenies with
    | taken hc h =>
      obtain rfl := StoreCall.insert.inj hc
      exact absurd (firstTaken_single h) hfree
    | missing hc => cases hc
    | broken h => exact absurd hs h
    | oversized hn h =>
      cases s with
      | memory => cases hn
      | database db =>
        obtain rfl := List.mem_singleton.1 hn
        exact ⟨fun htakes => absurd (takes_iff.1 htakes _ hn) (Nat.not_le.2 h), herror⟩
  · exact .inl ⟨takes_iff.2 (permits_insert hstored).fits, s', hstored⟩

/-- An insertion adds the key of its row to the keys. -/
theorem Inserts.perm_keys {s' : Store} {row : Issue} (h : s.Inserts s' now [i] [row]) :
    s'.keys.Perm (row.key :: s.keys) := by
  have hkey : row.key = i.key := by
    rw [List.singleton_inj.1 h.rows_eq]
    rfl
  have hfree : row.key ∉ s.keys := by
    rw [mem_keys_iff, hkey]
    exact h.fresh i List.mem_cons_self
  refine (List.perm_ext_iff_of_nodup s'.nodup_keys (List.nodup_cons.2 ⟨hfree, s.nodup_keys⟩)).2
    fun k => ?_
  rw [mem_keys_iff, h.writes.hasRow_iff, List.mem_cons, mem_keys_iff]
  simp [or_comm, eq_comm]

theorem reread_eq_self_iff {row : Issue} : s.reread row = row ↔ s.IsExact row.effortToFix := by
  cases s with
  | memory m => exact ⟨fun _ => trivial, fun _ => rfl⟩
  | database db => exact Issue.reread_eq_self_iff

end Store

/-- A document under a free key adds it to the keys. -/
theorem Index.perm_keys_put {x : Index} {d : IssueDoc} (h : x.get? d.key = none) :
    (x.put d).keys.Perm (d.key :: x.keys) := by
  have hfree : d.key ∉ x.keys := fun hmem => by simp [Index.mem_keys_iff, h] at hmem
  refine (List.perm_ext_iff_of_nodup (KeyMap.nodup_keys _)
    (List.nodup_cons.2 ⟨hfree, KeyMap.nodup_keys _⟩)).2 fun k => ?_
  change k ∈ (x.put d).keys ↔ k ∈ d.key :: x.keys
  rw [List.mem_cons, Index.mem_keys_iff, Index.mem_keys_iff, Index.get?_put]
  split_ifs with hk
  · simp [hk]
  · simp [Ne.symm hk]

namespace Service

open World Attempt

variable {keys : Nat → IssueKey} {w : World} {limits : ServiceLimits} {principal : Principal}
  {q : ManualIssueRequest} {key : IssueKey} {component project : Component} {rule : Rule}

/-! ## How a creation ends -/

/-- The event of a creation, by what became of it. -/
def raisingEvent (principal : Principal) (slot : Option ProjectKey)
    (r : Except ServiceError IssueDoc) : AuditEvent :=
  mutationEvent .createManualIssue (r.toOption.map (·.key)) principal ⟨slot, r⟩

/-- How a creation under the key ends: refused with nothing done, refused by a store that has no
room for the row, or with the row stored and its document indexed. -/
inductive Ending (limits : ServiceLimits) (principal : Principal) (q : ManualIssueRequest)
    (key : IssueKey) (w : World) : Option ProjectKey → Except ServiceError IssueDoc → World → Prop
  | refused {slot : Option ProjectKey} {e : ServiceError}
    (h : Refused limits principal q w slot e) : Ending limits principal q key w slot (.error e) w
  | denied {component project : Component} {rule : Rule}
    (h : Accepted limits principal q w component project rule)
    (hs : ¬w.store.Takes (q.row key component rule principal.login w.clock)) :
    Ending limits principal q key w (some project.projectKey)
      (.error (.store (Store.tooLarge (q.row key component rule principal.login w.clock))))
      { w with keysDrawn := w.keysDrawn + 1 }
  | added {component project : Component} {rule : Rule} {s' : Store}
    (h : Accepted limits principal q w component project rule)
    (hs : w.store.Takes (q.row key component rule principal.login w.clock))
    (hi : w.store.perform w.clock (.insert [q.issue key component rule principal.login]) =
      (.ok [q.row key component rule principal.login w.clock], s')) :
    Ending limits principal q key w (some project.projectKey)
      (.ok (q.row key component rule principal.login w.clock).doc)
      { w with
        store := s'
        index := w.index.put (q.row key component rule principal.login w.clock).doc
        keysDrawn := w.keysDrawn + 1 }

theorem attains_findComponent_supplied
    {Q : Except ServiceError (Component × ProjectKey) → World → Prop}
    (hok : ∀ component project, Located w q component project →
      Q (.ok (component, project.projectKey)) w)
    (herr : ∀ e, Refused limits principal q w none e → Q (.error e) w) :
    (findComponent q.componentKey).Attains (supplied keys) Q w := by
  refine attains_bind.2 (attains_catalog_supplied (attains_bind.2 (attains_found.2
    ⟨fun component hc => ?_, fun hnone => herr _ (.unknownComponent hnone)⟩)))
  refine attains_bind.2 (attains_bind.2 (attains_catalog_supplied (attains_bind.2
    (attains_found.2 ⟨fun project hp => ?_, fun hnone => herr _ (.unknownProject hc hnone)⟩))))
  exact hok component project ⟨hc, hp⟩

theorem attains_findManualRule_supplied (ha : Admitted w principal q component project)
    {Q : Except ServiceError Rule → World → Prop}
    (hok : ∀ rule, Ruled w principal q component project rule → Q (.ok rule) w)
    (herr : ∀ e, Refused limits principal q w (some project.projectKey) e → Q (.error e) w) :
    (findManualRule q.ruleKey).Attains (supplied keys) Q w := by
  refine attains_bind.2 (attains_catalog_supplied (attains_bind.2 (attains_found.2
    ⟨fun rule hr => ?_, fun hnone => herr _ (.unknownRule ha hnone)⟩)))
  dsimp only [Then]
  split_ifs with hmanual
  · exact hok rule ⟨ha, hr, hmanual⟩
  · exact herr _ (.ruleNotManual ha hr (Bool.eq_false_iff.2 hmanual))

theorem attains_raiseIssue_supplied (hs : w.store.HasTables)
    (hfree : ¬w.store.HasRow (keys w.keysDrawn)) (hl : Located w q component project) :
    (raiseIssue limits principal q component project.projectKey).Attains (supplied keys)
      (Ending limits principal q (keys w.keysDrawn) w (some project.projectKey)) w := by
  unfold raiseIssue
  refine attains_bind.2 (attains_authorize_supplied (fun hpermits => ?_)
    fun hrefused => .refused (.forbidden hl hrefused))
  refine attains_bind.2 (attains_findManualRule_supplied ⟨hl, hpermits⟩ (fun rule hr => ?_)
    fun e he => .refused he)
  dsimp only [Then]
  have hfaults := q.faults_fieldErrors limits
  split_ifs with hnone
  · have haccepted : Accepted limits principal q w component project rule :=
      ⟨hr, hfaults.eq_nil_iff.1 (List.isEmpty_iff.1 hnone)⟩
    have hrow : (q.issue (keys w.keysDrawn) component rule principal.login).inserted w.clock =
        q.row (keys w.keysDrawn) component rule principal.login w.clock :=
      haccepted.fits.inserted_issue
    refine attains_bind.2 (attains_freshKey_supplied (attains_bind.2 (attains_store_supplied ?_)))
    dsimp only
    rcases Store.insert_single_of_free (i := q.issue (keys w.keysDrawn) component rule
      principal.login) hs hfree w.clock with ⟨htakes, s', hstored⟩ | ⟨hfull, hdenied⟩
    · rw [hrow] at htakes hstored
      rw [hstored]
      refine attains_bind.2 (attains_found.2 ⟨?_, nofun⟩)
      rintro _ ⟨⟩
      exact attains_indexRow_supplied (.added haccepted htakes hstored)
    · rw [hdenied]
      rw [hrow] at hfull ⊢
      exact .denied haccepted hfull
  · exact attains_bind.2 (.refused (.fields hr hfaults fun h => hnone (List.isEmpty_iff.2 h)))

/-! ### One end only -/

variable {component' project' : Component} {rule' : Rule} {slot slot' : Option ProjectKey}
  {e e' : ServiceError}

theorem Located.unique (h : Located w q component project) (h' : Located w q component' project') :
    component = component' ∧ project = project' := by
  obtain rfl := Option.some.inj (h.known.symm.trans h'.known)
  exact ⟨rfl, Option.some.inj (h.resolves.symm.trans h'.resolves)⟩

theorem Ruled.unique (h : Ruled w principal q component project rule)
    (h' : Ruled w principal q component' project' rule') :
    component = component' ∧ project = project' ∧ rule = rule' := by
  obtain ⟨hcomponent, hproject⟩ := h.toLocated.unique h'.toLocated
  exact ⟨hcomponent, hproject, Option.some.inj (h.ruleKnown.symm.trans h'.ruleKnown)⟩

/-- A stage that fails is not passed. -/
theorem Refused.not_accepted (h : Refused limits principal q w slot e) :
    ¬Accepted limits principal q w component project rule := by
  intro ha
  cases h with
  | unknownComponent h => cases h.symm.trans ha.known
  | unknownProject hc h =>
    obtain rfl := Option.some.inj (hc.symm.trans ha.known)
    cases h.symm.trans ha.resolves
  | forbidden hl h =>
    obtain ⟨rfl, rfl⟩ := hl.unique ha.toLocated
    cases h.symm.trans ha.permits
  | unknownRule _ h => cases h.symm.trans ha.ruleKnown
  | ruleNotManual _ hr h =>
    obtain rfl := Option.some.inj (hr.symm.trans ha.ruleKnown)
    cases h.symm.trans ha.manual
  | fields _ hes h => exact h (hes.eq_nil_iff.2 ha.fits)

/-- Each stage is reached only if those before it are passed. -/
theorem Refused.unique (h : Refused limits principal q w slot e)
    (h' : Refused limits principal q w slot' e') : slot = slot' ∧ e = e' := by
  cases h <;> cases h' <;> grind [Located, Admitted, Ruled, ManualIssueRequest.Faults.unique]

/-! ## The whole creation -/

/-- What a creation has added to a world: the row, its document and one event, and nothing else.
The row is read back as it was given to the store, but for an effort that a database reads as
another. -/
structure Adds (w : World) (principal : Principal) (project : ProjectKey) (row : Issue)
    (w' : World) : Prop where
  read : ∀ now, (w'.store.perform now (.selectByKey row.key)).1 = .ok (some (w.store.reread row))
  exact_iff : w.store.reread row = row ↔ w.store.IsExact row.effortToFix
  keys : w'.store.keys.Perm (row.key :: w.store.keys)
  others : ∀ key, key ≠ row.key → w'.store.cell? key = w.store.cell? key
  changelogs : ∀ key, w'.store.entries key = w.store.entries key
  document : w'.index.get? row.key = some row.doc
  indexed : w'.index.keys.Perm (row.key :: w.index.keys)
  documents : ∀ key, key ≠ row.key → w'.index.get? key = w.index.get? key
  event : w'.audit = w.audit.record w.auditStamp
    { call := .mutation .createManualIssue, issueKey := some row.key,
      principal := some principal.login, projectKey := some project, outcome := .applied }
  rest : w' = { w with
    store := w'.store, index := w'.index, audit := w'.audit, keysDrawn := w'.keysDrawn }

theorem attains_create_supplied (hs : w.store.HasTables)
    (hfree : ¬w.store.HasRow (keys w.keysDrawn)) :
    (create limits principal q).Attains (supplied keys)
      (fun r w' => ∃ slot u, Ending limits principal q (keys w.keysDrawn) w slot r u ∧
        w' = (u.perform (.record (raisingEvent principal slot r))).2) w := by
  have hraise : (inProject (findComponent q.componentKey) (raiseIssue limits principal q)).Attains
      (supplied keys) (fun mutated u => Ending limits principal q (keys w.keysDrawn) w
        mutated.project mutated.result u) w := by
    refine Script.attains_bind.2 (attains_findComponent_supplied (fun component project hl => ?_)
      fun e (he : Refused limits principal q w none e) => .refused he)
    exact Script.attains_bind.2 (attains_raiseIssue_supplied hs hfree hl)
  refine Script.attains_bind.2 (hraise.mono fun mutated u h => ?_)
  exact Script.attains_bind.2 (Script.attains_single.2 (supplied_settled ⟨_, u, h, rfl⟩))

variable {r : Except ServiceError IssueDoc} {u : World}

theorem Ending.exists_ok_iff (h : Ending limits principal q key w slot r u) :
    (∃ d, r = .ok d) ↔ ∃ component project rule,
      Accepted limits principal q w component project rule ∧
      w.store.Takes (q.row key component rule principal.login w.clock) := by
  cases h with
  | refused h =>
    refine ⟨fun hok => absurd hok (by simp), ?_⟩
    rintro ⟨component, project, rule, ha, -⟩
    exact absurd ha h.not_accepted
  | denied h hs =>
    refine ⟨fun hok => absurd hok (by simp), ?_⟩
    rintro ⟨component, project, rule, ha, htakes⟩
    obtain ⟨rfl, rfl, rfl⟩ := h.toRuled.unique ha.toRuled
    exact absurd htakes hs
  | added h hs => exact ⟨fun _ => ⟨_, _, _, h, hs⟩, fun _ => ⟨_, rfl⟩⟩

theorem Ending.eq_error_iff (h : Ending limits principal q key w slot r u) :
    r = .error e ↔ (∃ slot, Refused limits principal q w slot e) ∨
      ∃ component project rule, Accepted limits principal q w component project rule ∧
        ¬w.store.Takes (q.row key component rule principal.login w.clock) ∧
        e = .store (Store.tooLarge (q.row key component rule principal.login w.clock)) := by
  cases h with
  | refused h =>
    refine ⟨fun he => .inl ⟨_, Except.error.inj he ▸ h⟩, ?_⟩
    rintro (⟨slot', h'⟩ | ⟨component, project, rule, ha, -⟩)
    · rw [(h.unique h').2]
    · exact absurd ha h.not_accepted
  | denied h hs =>
    refine ⟨fun he => .inr ⟨_, _, _, h, hs, (Except.error.inj he).symm⟩, ?_⟩
    rintro (⟨slot', h'⟩ | ⟨component, project, rule, ha, -, rfl⟩)
    · exact absurd h h'.not_accepted
    · obtain ⟨rfl, rfl, rfl⟩ := h.toRuled.unique ha.toRuled
      rfl
  | added h hs =>
    refine ⟨nofun, ?_⟩
    rintro (⟨slot', h'⟩ | ⟨component, project, rule, ha, hfull, -⟩)
    · exact absurd h h'.not_accepted
    · obtain ⟨rfl, rfl, rfl⟩ := h.toRuled.unique ha.toRuled
      exact absurd hs hfull

theorem Ending.unchanged (h : Ending limits principal q key w slot r u) (hr : r = .error e) :
    u.store = w.store ∧ u.index = w.index ∧ u.audit = w.audit ∧ u.clock = w.clock := by
  cases h with
  | refused | denied => exact ⟨rfl, rfl, rfl, rfl⟩
  | added => cases hr

/-- The event of a refusal names the project that is known by then. -/
theorem Ending.slot_eq (h : Ending limits principal q key w slot r u)
    (h' : Refused limits principal q w slot' e) : slot' = slot := by
  cases h with
  | refused h => exact (h'.unique h).1
  | denied h | added h => exact absurd h h'.not_accepted

theorem Ending.adds {d : IssueDoc} (h : Ending limits principal q key w slot r u) (hr : r = .ok d)
    (hnew : w.index.get? key = none) :
    ∃ component project rule, Accepted limits principal q w component project rule ∧
      d = (q.row key component rule principal.login w.clock).doc ∧
      Adds w principal project.projectKey (q.row key component rule principal.login w.clock)
        (u.perform (.record (raisingEvent principal slot r))).2 := by
  cases h with
  | refused | denied => cases hr
  | @added component project rule s' ha hs hi =>
    obtain rfl := Except.ok.inj hr
    have hinserts := Store.inserts_of_insert hi
    have hreread : s'.reread = w.store.reread := by
      funext i
      rw [show s' = _ from (congrArg Prod.snd hi).symm, Store.reread_perform]
    refine ⟨component, project, rule, ha, rfl, ?_⟩
    refine
      { read := fun now => ?_, exact_iff := Store.reread_eq_self_iff, keys := hinserts.perm_keys,
        others := fun k hk => ?_, changelogs := fun k => hinserts.logs.others k nofun,
        document := Index.get?_put_self w.index _, indexed := Index.perm_keys_put hnew,
        documents := fun k hk => ?_, event := rfl, rest := rfl }
    · rw [← hreread]
      exact (hinserts.writes.holds _ List.mem_cons_self).perform_selectByKey now
    · exact hinserts.writes.others k fun i hi => by
        obtain rfl := List.mem_singleton.1 hi
        exact hk.symm
    · exact (Index.get?_put w.index _ k).trans (if_neg hk.symm)

/-- A creation succeeds just if its request is accepted and the store has room for the row, and the
error is otherwise that of the first stage that fails.  A success adds the row as it was asked for,
its document and one event, under whichever fresh key; an error leaves store and index as they
were. -/
theorem manual_issue_end_to_end (keys : Nat → IssueKey) (limits : ServiceLimits)
    (principal : Principal) (q : ManualIssueRequest) (hs : w.store.HasTables)
    (hfree : ¬w.store.HasRow (keys w.keysDrawn)) (hnew : w.index.get? (keys w.keysDrawn) = none) :
    let row component rule := q.row (keys w.keysDrawn) component rule principal.login w.clock
    ∃ r w', (create limits principal q).runSupplied keys w = (r, w') ∧
      (keys = nthKey → (create limits principal q).run w [] = (.returned r, w')) ∧
      ((∃ d, r = .ok d) ↔ ∃ component project rule,
        Accepted limits principal q w component project rule ∧
        w.store.Takes (row component rule)) ∧
      (∀ e, r = .error e ↔ (∃ slot, Refused limits principal q w slot e) ∨
        ∃ component project rule, Accepted limits principal q w component project rule ∧
          ¬w.store.Takes (row component rule) ∧
          e = .store (Store.tooLarge (row component rule))) ∧
      (∀ d, r = .ok d → ∃ component project rule,
        Accepted limits principal q w component project rule ∧ d = (row component rule).doc ∧
        (row component rule).line.map (fun l => (l.toNat : Int)) = q.line.map (·.toInt) ∧
        Adds w principal project.projectKey (row component rule) w') ∧
      ∀ e, r = .error e → w'.store = w.store ∧ w'.index = w.index ∧
        ∃ slot, (∀ slot', Refused limits principal q w slot' e → slot' = slot) ∧
          w'.audit = w.audit.record w.auditStamp
            (mutationEvent .createManualIssue none principal ⟨slot, .error e⟩) := by
  obtain ⟨r, w', hrun⟩ :
      ∃ r w', (create limits principal q).runSupplied keys w = (r, w') := ⟨_, _, rfl⟩
  have hcreate : (create limits principal q).Attains (supplied keys) _ w :=
    attains_create_supplied hs hfree
  have hattained := hcreate.runSupplied
  rw [hrun] at hattained
  dsimp only at hattained
  obtain ⟨slot, u, hend, rfl⟩ := hattained
  refine ⟨r, _, hrun, fun hkeys => ?_, hend.exists_ok_iff, fun e => hend.eq_error_iff,
    fun d hd => ?_, fun e he => ?_⟩
  · rw [Script.run_eq_runSupplied, ← hkeys, hrun]
  · obtain ⟨component, project, rule, ha, hdoc, hadds⟩ := hend.adds hd hnew
    exact ⟨component, project, rule, ha, hdoc, ha.fits.toNat_line, hadds⟩
  · obtain ⟨hstore, hindex, haudit, hclock⟩ := hend.unchanged he
    refine ⟨hstore, hindex, slot, fun _ => hend.slot_eq, ?_⟩
    have hevent : raisingEvent principal slot r =
        mutationEvent .createManualIssue none principal ⟨slot, .error e⟩ := by
      rw [he]
      rfl
    rw [← hevent, ← haudit, World.auditStamp, ← hclock]
    rfl

/-- The sample world with its issues in a database. -/
def sampleWorld : World := { World.sample with store := .database Store.sampleDatabase }

/-- A request whose effort a database reads as the next larger number. -/
def sampleRequest : ManualIssueRequest where
  componentKey := ⟨"sample"⟩
  ruleKey := ⟨"manual:manualRuleKey"⟩
  effortToFix := some ⟨0x404cb2727c0eeddc⟩

/-- The document has the effort that was asked for, and the row is read with another one. -/
theorem manual_issue_end_to_end_sample : sampleWorld.store.HasTables ∧
    ¬sampleWorld.store.HasRow ⟨"fresh"⟩ ∧ sampleWorld.index.get? ⟨"fresh"⟩ = none ∧
    ∃ d w' row, (create {} ⟨⟨"gandalf"⟩, []⟩ sampleRequest).runSupplied (fun _ => ⟨"fresh"⟩)
        sampleWorld = (.ok d, w') ∧
      d.key = ⟨"fresh"⟩ ∧ d.message = some "Manual" ∧
      d.effortToFix = some ⟨0x404cb2727c0eeddc⟩ ∧ w'.index.get? ⟨"fresh"⟩ = some d ∧
      (w'.store.perform ⟨2000⟩ (.selectByKey ⟨"fresh"⟩)).1 = .ok (some row) ∧
      row.effortToFix = some ⟨0x404cb2727c0eeddd⟩ := by
  have hs : sampleWorld.store.HasTables := ⟨rfl, rfl⟩
  have hfree : ¬sampleWorld.store.HasRow ⟨"fresh"⟩ := Store.not_hasRow_iff.2 rfl
  have hnew : sampleWorld.index.get? ⟨"fresh"⟩ = none := rfl
  refine ⟨hs, hfree, hnew, ?_⟩
  obtain ⟨r, w', hrun, -, hok, -, hadds, -⟩ := manual_issue_end_to_end (fun _ => ⟨"fresh"⟩) {}
    ⟨⟨"gandalf"⟩, []⟩ sampleRequest hs hfree hnew
  have haccepted : Accepted {} ⟨⟨"gandalf"⟩, []⟩ sampleRequest sampleWorld
      ⟨⟨"sample"⟩, ⟨"sample"⟩, ⟨"sample"⟩⟩ ⟨⟨"sample"⟩, ⟨"sample"⟩, ⟨"sample"⟩⟩
      ⟨⟨"manual:manualRuleKey"⟩, "Manual", true⟩ := by
    refine ⟨⟨⟨⟨by decide +kernel, by decide +kernel⟩, by decide +kernel⟩, by decide +kernel, rfl⟩,
      ?_⟩
    refine ⟨nofun, fun x hx => ?_, nofun⟩
    obtain rfl := Option.some.inj hx
    exact ⟨by decide, by decide⟩
  have htakes : sampleWorld.store.Takes (sampleRequest.row ⟨"fresh"⟩
      ⟨⟨"sample"⟩, ⟨"sample"⟩, ⟨"sample"⟩⟩ ⟨⟨"manual:manualRuleKey"⟩, "Manual", true⟩
      ⟨"gandalf"⟩ sampleWorld.clock) := by
    unfold Store.Takes sampleWorld
    dsimp only
    rw [Payload.size_toUTF8_jsonText]
    decide +kernel
  obtain ⟨d, rfl⟩ := hok.2 ⟨_, _, _, haccepted, htakes⟩
  obtain ⟨component, project, rule, ha, rfl, -, hadds⟩ := hadds d rfl
  obtain ⟨rfl, rfl, rfl⟩ := ha.toRuled.unique haccepted.toRuled
  refine ⟨_, w', _, hrun, rfl, rfl, rfl, hadds.document, hadds.read ⟨2000⟩, ?_⟩
  refine (Issue.effortToFix_reread_of_finite (x := ⟨0x404cb2727c0eeddc⟩) rfl (by decide)).trans ?_
  decide +kernel

end Service

end Triage
