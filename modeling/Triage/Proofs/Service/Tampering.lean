import Triage.Proofs.Service.Interleaving
import Triage.Proofs.Store.Soundness

/-!
# Tables that were tampered with

Whatever the tables of a database hold, its reading calls answer only rows that pass their checks.
A call of the service that meets a row that does not ends with the error of the store, and has
written nothing: it reads before it writes, and the first read that fails ends it.  This holds even
if the tables are tampered with between its steps.
-/

namespace Triage

/-! ## Reads that fail -/

namespace Call

/-- The error of a read of the store that failed. -/
def failedRead? : (c : Call) → c.Answer → Option StoreError
  | .store c, .error e => if c.isReading then some e else none
  | _, _ => none

/-- Whether the call writes to the store. -/
def writes : Call → Bool
  | .store c => !c.isReading
  | _ => false

end Call

namespace Service

/-- The errors of the reads of the store that failed so far, and whether the store was written
to. -/
structure Tally where
  errors : List StoreError := []
  wrote : Bool := false

/-- The tally after an answer. -/
def Tally.after (t : Tally) (c : Call) (r : c.Answer) : Tally :=
  ⟨(c.failedRead? r).toList ++ t.errors, c.writes || t.wrote⟩

/-- The dialogue in which every call may be answered in every way. -/
def tallying : Dialogue Tally where
  permits _ _ := True
  answers t c r t' := t' = t.after c r

/-- Whether the result is the error of the one read that failed, before which nothing was written;
if no read failed, it may be any. -/
def Tally.Closes {α : Type} (r : Except ServiceError α) (t : Tally) : Prop :=
  ∀ e ∈ t.errors, r = .error (.store e) ∧ t.wrote = false

theorem Tally.closes_of_errors_eq_nil {α : Type} {r : Except ServiceError α} {t : Tally}
    (h : t.errors = []) : t.Closes r := by
  intro e he
  rw [h] at he
  cases he

/-- An attempt that ends with the error of a read that failed. -/
theorem Tally.closes_error {α : Type} (e : StoreError) :
    Tally.Closes (.error (.store e) : Except ServiceError α) { errors := [e] } := by
  intro e' he
  rw [List.mem_singleton.1 he]
  exact ⟨rfl, rfl⟩

/-! ### Steps of the calls -/

open Attempt

variable {t : Tally} {key : IssueKey} {limits : ServiceLimits} {principal : Principal}
  {m : Mutation}

theorem consults_tallying (t : Tally) : tallying.Consults t fun _ _ => True :=
  ⟨fun _ => trivial, fun _ _ _ h => ⟨h, fun _ _ => trivial⟩⟩

theorem attains_record_tallying {α : Type} {e : AuditEvent} {a : α} {Q : α → Tally → Prop}
    (hQ : Q a t) : (do Script.single (.record e); return a : Script α).Attains tallying Q t := by
  refine Script.attains_bind.2 (Script.attains_single.2 ⟨trivial, ?_⟩)
  rintro _ _ rfl
  exact hQ

theorem attains_locked_tallying {α : Type} {refused : α} {body : Script α} {Q : α → Tally → Prop}
    (hrefused : Q refused t) (hbody : body.Attains tallying Q t) :
    (locked key refused body).Attains tallying Q t := by
  refine Script.attains_bind.2 (Script.attains_single.2 ⟨trivial, ?_⟩)
  rintro (_ | _) _ rfl
  · exact hrefused
  · refine Script.attains_bind.2 (hbody.mono fun a t' h => ?_)
    refine Script.attains_bind.2 (Script.attains_single.2 ⟨trivial, ?_⟩)
    rintro _ _ rfl
    exact h

theorem attains_authorize_tallying {op : Operation} {project : ProjectKey}
    {Q : Except ServiceError Unit → Tally → Prop} (hQ : ∀ r, Q r t) :
    (authorize principal op project).Attains tallying Q t := by
  refine attains_authorize.2 ⟨trivial, ?_⟩
  rintro r _ rfl
  exact hQ _

theorem attains_indexRow_tallying {row : Issue} {Q : Except ServiceError IssueDoc → Tally → Prop}
    (hQ : ∀ r, Q r t) : (indexRow row).Attains tallying Q t := by
  refine attains_bind.2 (attains_index.2 ⟨trivial, ?_⟩)
  rintro (e | u) _ rfl
  · exact hQ _
  · refine attains_bind.2 (attains_index.2 ⟨trivial, ?_⟩)
    rintro (e | d) _ rfl
    · exact hQ _
    · exact attains_found_of (fun d _ => hQ _) (hQ _)

/-- A write of the store leaves it to be seen what comes of it, but no read has failed. -/
theorem attains_write_tallying {c : StoreCall} (hc : c.isReading = false)
    {Q : Except ServiceError c.Answer → Tally → Prop} (hQ : ∀ r, Q r { t with wrote := true }) :
    (store c).Attains tallying Q t := by
  refine attains_store.2 ⟨trivial, ?_⟩
  rintro r _ rfl
  have hafter : t.after (.store c) r = { t with wrote := true } := by
    cases r <;> simp [Tally.after, Call.failedRead?, Call.writes, hc]
  rw [hafter]
  exact hQ _

theorem attains_loadIssue_tallying {Q : Except ServiceError Issue → Tally → Prop}
    (hok : ∀ row, Q (.ok row) {}) (hnone : Q (.error (.unknownIssue key)) {})
    (herr : ∀ e, Q (.error (.store e)) { errors := [e] }) :
    (loadIssue key).Attains tallying Q {} := by
  refine attains_bind.2 (attains_store.2 ⟨trivial, ?_⟩)
  rintro (e | o) _ rfl
  · exact herr e
  · exact attains_found_of (fun row _ => hok row) hnone

/-! ### The calls -/

theorem attains_changeRow_tallying {current : Issue} (project : ProjectKey) :
    (changeRow limits principal m current project).Attains tallying
      (fun _ t' => t'.errors = []) {} := by
  unfold changeRow
  refine attains_bind.2 (attains_authorize_tallying ?_)
  rintro (e | _)
  · rfl
  refine attains_bind.2 (Mutation.attains_apply (consults_tallying {})
    (fun changed _ => ?_) fun e _ => rfl)
  refine attains_bind.2 (attains_write_tallying rfl ?_)
  rintro (e | row)
  · rfl
  · exact attains_indexRow_tallying fun r => rfl

theorem attains_mutate_tallying :
    (mutate limits principal key m).Attains tallying Tally.Closes {} := by
  have hbody : (mutateLocked limits principal key m).Attains tallying
      (fun mutated => Tally.Closes mutated.result) {} := by
    refine attains_inProject (Q := Tally.Closes)
      (attains_bind.2 (attains_loadIssue_tallying (fun current => ?_) ?_ Tally.closes_error))
    · refine attains_bind.2 (attains_findProject (consults_tallying {}) (fun project => ?_)
        fun e _ => Tally.closes_of_errors_eq_nil rfl)
      exact (attains_changeRow_tallying project).mono fun r t h => Tally.closes_of_errors_eq_nil h
    · exact Tally.closes_of_errors_eq_nil rfl
  refine Script.attains_bind.2 ((attains_locked_tallying ?_ hbody).mono fun mutated t h => ?_)
  · exact Tally.closes_of_errors_eq_nil rfl
  · exact attains_record_tallying h

theorem attains_create_tallying {q : ManualIssueRequest} :
    (create limits principal q).Attains tallying Tally.Closes {} := by
  have hraise (component : Component) (project : ProjectKey) :
      (raiseIssue limits principal q component project).Attains tallying
        (fun _ t => t.errors = []) {} := by
    unfold raiseIssue
    refine attains_bind.2 (attains_authorize_tallying ?_)
    rintro (e | _)
    · rfl
    refine attains_bind.2 (attains_findManualRule (consults_tallying {}) (fun rule _ => ?_)
      fun e _ => rfl)
    dsimp only [Then]
    split_ifs
    · refine attains_bind.2 (attains_freshKey.2 ⟨trivial, ?_⟩)
      rintro fresh _ rfl
      refine attains_bind.2 (attains_write_tallying rfl ?_)
      rintro (e | rows)
      · rfl
      · exact attains_bind.2
          (attains_found_of (fun row _ => attains_indexRow_tallying fun r => rfl) rfl)
    · exact attains_bind.2 rfl
  have hbody : (inProject (findComponent q.componentKey) (raiseIssue limits principal q)).Attains
      tallying (fun _ t => t.errors = []) {} :=
    attains_inProject (attains_findComponent (consults_tallying {})
      (fun component project _ => hraise component project) fun e _ => rfl)
  refine Script.attains_bind.2 (hbody.mono fun mutated t h => ?_)
  exact attains_record_tallying (Tally.closes_of_errors_eq_nil h)

theorem attains_reindex_tallying : (reindex key).Attains tallying Tally.Closes {} := by
  have hbody : (do indexRow (← loadIssue key) : Attempt IssueDoc).Attains tallying
      Tally.Closes {} := by
    refine attains_bind.2 (attains_loadIssue_tallying (fun row => ?_) ?_ Tally.closes_error)
    · exact attains_indexRow_tallying fun r => Tally.closes_of_errors_eq_nil rfl
    · exact Tally.closes_of_errors_eq_nil rfl
  refine Script.attains_bind.2 ((attains_locked_tallying ?_ hbody).mono fun r t h => ?_)
  · exact Tally.closes_of_errors_eq_nil rfl
  · exact attains_record_tallying h

/-- The tally of a call that has only read: it is empty, unless the call has failed with the error
of the read that failed. -/
def Tally.Reads {α : Type} (r : Except ServiceError α) (t : Tally) : Prop :=
  t = {} ∨ ∃ e, r = .error (.store e) ∧ t = { errors := [e] }

theorem Tally.Reads.closes {α : Type} {r : Except ServiceError α} (h : Tally.Reads r t) :
    Tally.Closes r t := by
  rcases h with rfl | ⟨e, rfl, rfl⟩
  · exact Tally.closes_of_errors_eq_nil rfl
  · exact Tally.closes_error e

theorem Tally.Reads.error {α β : Type} {e : ServiceError}
    (h : Tally.Reads (.error e : Except ServiceError α) t) :
    Tally.Reads (.error e : Except ServiceError β) t := by
  rcases h with rfl | ⟨d, hd, rfl⟩
  · exact .inl rfl
  · cases hd
    exact .inr ⟨d, rfl, rfl⟩

theorem Tally.Reads.ok {α β : Type} {a : α} (h : Tally.Reads (.ok a : Except ServiceError α) t)
    (r : Except ServiceError β) : Tally.Reads r t := by
  rcases h with rfl | ⟨d, hd, -⟩
  · exact .inl rfl
  · cases hd

theorem attains_syncKey_tallying : (syncKey key).Attains tallying Tally.Reads {} := by
  refine attains_bind.2 (attains_store.2 ⟨trivial, ?_⟩)
  rintro (e | _ | row) _ rfl
  · exact .inr ⟨e, rfl, rfl⟩
  · refine attains_bind.2 (attains_index.2 ⟨trivial, ?_⟩)
    rintro (e | u) _ rfl <;> exact .inl rfl
  · refine attains_bind.2 (attains_index.2 ⟨trivial, ?_⟩)
    rintro (e | u) _ rfl <;> exact .inl rfl

theorem attains_syncKeys_tallying (keys : List IssueKey) :
    (syncKeys keys).Attains tallying Tally.Reads {} := by
  induction keys with
  | nil => exact .inl rfl
  | cons key keys ih =>
    refine attains_bind.2
      ((attains_locked_tallying (.inl rfl) attains_syncKey_tallying).mono fun r t h => ?_)
    -- a key that was synchronized has left the tally empty, so the others start from there
    rcases r with e | present
    · exact h.error
    · obtain rfl | ⟨e, he, -⟩ := h
      · refine attains_bind.2 (ih.mono fun r t h => ?_)
        rcases r with e | n
        · exact h
        · exact h.ok _
      · cases he

theorem attains_indexAll_tallying : indexAll.Attains tallying Tally.Closes {} := by
  have hrebuild : rebuild.Attains tallying Tally.Reads {} := by
    refine attains_bind.2 (attains_store.2 ⟨trivial, ?_⟩)
    rintro (e | rows) _ rfl
    · exact .inr ⟨e, rfl, rfl⟩
    · refine attains_bind.2 (attains_index.2 ⟨trivial, ?_⟩)
      rintro (e | indexed) _ rfl
      · exact .inl rfl
      · exact attains_syncKeys_tallying _
  refine Script.attains_bind.2 (hrebuild.mono fun r t h => ?_)
  exact attains_record_tallying h.closes

theorem Tally.Closes.map_pure {α β : Type} {r : Except ServiceError α} (h : Tally.Closes r t)
    (f : α → β) :
    (pure (r.map f) : Script (Except ServiceError β)).Attains tallying Tally.Closes t := by
  intro e he
  obtain ⟨rfl, hwrote⟩ := h e he
  exact ⟨rfl, hwrote⟩

theorem ServiceCall.attains_tallying (limits : ServiceLimits) (c : ServiceCall) :
    (c.script limits).Attains tallying Tally.Closes {} := by
  rcases c with (⟨principal, key, m⟩ | ⟨principal, q⟩ | key) | _
  · exact Script.attains_bind.2 (attains_mutate_tallying.mono fun r t h => h.map_pure _)
  · exact Script.attains_bind.2 (attains_create_tallying.mono fun r t h => h.map_pure _)
  · exact Script.attains_bind.2 (attains_reindex_tallying.mono fun r t h => h.map_pure _)
  · exact Script.attains_bind.2 (attains_indexAll_tallying.mono fun r t h => h.map_pure _)

/-! ## Runs with tampering -/

/-- What happens before a step and to it: the world becomes another one, and the call may be
refused. -/
structure Incident where
  meddling : World → World := id
  refused : Option Refusal := none

/-- A step that was taken: the world that it found, whether it was refused, and the call. -/
structure Moment where
  world : World
  refused : Option Refusal
  call : Call

namespace Moment

/-- The answer to the step. -/
def answer (m : Moment) : m.call.Answer := (m.world.refusing m.refused m.call).1

/-- The world after the step. -/
def after (m : Moment) : World := (m.world.refusing m.refused m.call).2

/-- Whether the step reads a row of a database that does not pass its checks. -/
def MeetsBadRow (m : Moment) : Prop :=
  ∃ db key, m.world.store = .database db ∧ db.HasBadRow key ∧
    (m.call = .store (.selectByKey key) ∨ m.call = .store .selectAll)

/-- A step that meets a bad row fails. -/
theorem MeetsBadRow.exists_failedRead {m : Moment} (h : m.MeetsBadRow) :
    ∃ e, m.call.failedRead? m.answer = some e := by
  obtain ⟨w, f, c⟩ := m
  obtain ⟨db, key, hstore : w.store = .database db, hbad, hcall⟩ := h
  have hfails (q : StoreCall) (hq : q.isReading = true)
      (herror : ∃ e, (db.perform w.clock q).1 = .error e) :
      ∃ e, (Call.store q).failedRead? (w.refusing f (.store q)).1 = some e := by
    rcases (w.answers_refusing f (.store q)).store with ⟨e, he, -⟩ | ⟨a, s', -, hp, -⟩
    · rw [he]
      exact ⟨e, if_pos hq⟩
    · obtain ⟨e, he⟩ := herror
      have hok : (db.perform w.clock q).1 = .ok a := by
        rw [hstore] at hp
        exact congrArg Prod.fst hp
      cases he.symm.trans hok
  obtain rfl | rfl : c = .store (.selectByKey key) ∨ c = .store .selectAll := hcall
  · exact hfails _ rfl (hbad.selectByKey w.clock)
  · exact hfails _ rfl (hbad.selectAll w.clock)

/-- A step that is no write of the store leaves it as it was. -/
theorem store_after {m : Moment} (h : m.call.writes = false) : m.after.store = m.world.store := by
  obtain ⟨w, f, c⟩ := m
  rcases w.answers_refusing f c with hp | ⟨-, hw⟩
  · have hafter : (w.refusing f c).2 = (w.perform c).2 := (congrArg Prod.snd hp).symm
    refine (congrArg World.store hafter).trans ?_
    cases c with
    | store q => exact Store.perform_of_isReading (by simpa [Call.writes] using h)
    | index | catalog | permits | freshKey | enter | leave | record => rfl
  · exact congrArg World.store hw

end Moment

end Service

open Service (Incident Moment Tally)

/-- Runs a script amid incidents, and tells the steps that it took. -/
def Script.runTampered {α : Type} (w : World) (is : List Incident) : Script α → α × List Moment
  | .done a => (a, [])
  | .ask c next =>
    let i := is.head?.getD {}
    let m : Moment := ⟨i.meddling w, i.refused, c⟩
    let (a, ms) := (next m.answer).runTampered m.after is.tail
    (a, m :: ms)

theorem Script.mem_runTampered {α : Type} {x : Script α} {c : Call} {next : c.Answer → Script α}
    (h : x = .ask c next) (w : World) (i : Incident) (is : List Incident) :
    ⟨i.meddling w, i.refused, c⟩ ∈ (x.runTampered w (i :: is)).2 := by
  subst h
  exact List.mem_cons_self

namespace Service

/-- The tally after steps. -/
def Tally.afterAll (t : Tally) (ms : List Moment) : Tally :=
  ms.foldl (fun t m => t.after m.call m.answer) t

theorem runTampered_of_attains {α : Type} {x : Script α} {Q : α → Tally → Prop} {t : Tally}
    (h : x.Attains tallying Q t) (w : World) (is : List Incident) :
    Q (x.runTampered w is).1 (t.afterAll (x.runTampered w is).2) := by
  induction x generalizing t w is with
  | done a => exact h
  | ask c next ih => exact ih _ (h.2 _ _ rfl) _ _

theorem Tally.mem_errors_afterAll {ms : List Moment} {e : StoreError} {t : Tally} :
    e ∈ (t.afterAll ms).errors ↔
      e ∈ t.errors ∨ ∃ m ∈ ms, m.call.failedRead? m.answer = some e := by
  induction ms generalizing t with
  | nil => simp [afterAll]
  | cons m ms ih =>
    have hcons : t.afterAll (m :: ms) = (t.after m.call m.answer).afterAll ms := rfl
    rw [hcons, ih]
    simp only [after, List.mem_append, Option.mem_toList, List.exists_mem_cons_iff]
    rw [or_comm (a := m.call.failedRead? m.answer = some e), or_assoc]

theorem Tally.wrote_afterAll {ms : List Moment} {t : Tally} :
    (t.afterAll ms).wrote = false ↔ t.wrote = false ∧ ∀ m ∈ ms, m.call.writes = false := by
  induction ms generalizing t with
  | nil => simp [afterAll]
  | cons m ms ih =>
    have hcons : t.afterAll (m :: ms) = (t.after m.call m.answer).afterAll ms := rfl
    rw [hcons, ih]
    simp only [after, Bool.or_eq_false_iff, List.forall_mem_cons]
    rw [and_comm (a := m.call.writes = false), and_assoc]

/-- A call that meets a bad row ends with the error of the store, and none of its steps has changed
the store, whatever is done to the world between them. -/
theorem ServiceCall.closes_on_bad_row (limits : ServiceLimits) (c : ServiceCall) (w : World)
    (is : List Incident) {m : Moment} (hm : m ∈ ((c.script limits).runTampered w is).2)
    (hbad : m.MeetsBadRow) :
    (∃ e, ((c.script limits).runTampered w is).1 = .error (.store e)) ∧
      ∀ m' ∈ ((c.script limits).runTampered w is).2, m'.after.store = m'.world.store := by
  obtain ⟨e, he⟩ := hbad.exists_failedRead
  obtain ⟨herror, hwrote⟩ := runTampered_of_attains (c.attains_tallying limits) w is e
    (Tally.mem_errors_afterAll.2 (.inr ⟨m, hm, he⟩))
  refine ⟨⟨e, herror⟩, fun m' hm' => Moment.store_after ?_⟩
  exact (Tally.wrote_afterAll.1 hwrote).2 m' hm'

/-! ## Runs on tables that stay as they are -/

/-- Whether the call cannot but meet a bad row: the one at its key, or any if it reads them all. -/
def ServiceCall.Meets (db : Database) : ServiceCall → Prop
  | .issue (.change _ key _) | .issue (.reindex key) => db.HasBadRow key
  | .issue (.create _ _) => False
  | .indexAll => ∃ key, db.HasBadRow key

/-- Whether a call has ended with an error of the store, which is the same as before. -/
def Spoilt {α : Type} (s : Store) (r : Except ServiceError α) (w : World) : Prop :=
  (∃ e, r = .error (.store e)) ∧ w.store = s

open Attempt

variable {w : World} {db : Database} {s : Store} {key : IssueKey} {limits : ServiceLimits}
  {principal : Principal} {m : Mutation}

theorem attains_record_alone {α : Type} {e : AuditEvent} {r : Except ServiceError α}
    (h : Spoilt s r w) :
    (do Script.single (.record e); return r : Script (Except ServiceError α)).Attains World.alone
      (Spoilt s) w := by
  refine Script.attains_bind.2 (Script.attains_single.2 ⟨trivial, fun u w' hr => ?_⟩)
  obtain rfl := hr.record
  exact h

theorem attains_store_of_error {c : StoreCall} {Q : Except ServiceError c.Answer → World → Prop}
    (hc : ∃ e, (w.store.perform w.clock c).1 = .error e) (hQ : ∀ e, Q (.error (.store e)) w) :
    (store c).Attains World.alone Q w := by
  refine attains_store.2 ⟨trivial, fun r w' h => ?_⟩
  rcases h.store with ⟨e, rfl, rfl⟩ | ⟨a, s', -, hp, -⟩
  · exact hQ e
  · obtain ⟨e, he⟩ := hc
    cases he.symm.trans (congrArg Prod.fst hp)

theorem attains_loadIssue_of_hasBadRow {Q : Except ServiceError Issue → World → Prop}
    (hs : w.store = .database db) (hbad : db.HasBadRow key)
    (hQ : ∀ e, Q (.error (.store e)) w) : (loadIssue key).Attains World.alone Q w := by
  refine attains_bind.2 (attains_store_of_error ?_ hQ)
  rw [hs]
  exact hbad.selectByKey w.clock

theorem attains_mutate_of_hasBadRow (hs : w.store = .database db) (hbad : db.HasBadRow key) :
    (mutate limits principal key m).Attains World.alone (Spoilt (.database db)) w := by
  have hlocked : (locked key ⟨none, .error .lockPoisoned⟩
      (mutateLocked limits principal key m)).Attains World.alone
        (fun mutated => Spoilt (.database db) mutated.result) w := by
    refine attains_locked ⟨⟨_, rfl⟩, hs⟩ ?_
    refine attains_inProject (Q := fun r (w' : World) => w'.locks = (w.locks.enter key).2 ∧
      Spoilt (.database db) r { w' with locks := w.locks.passed key }) (attains_bind.2 ?_)
    exact attains_loadIssue_of_hasBadRow hs hbad fun e => ⟨rfl, ⟨e, rfl⟩, hs⟩
  exact Script.attains_bind.2 (hlocked.mono fun mutated w' h => attains_record_alone h)

theorem attains_reindex_of_hasBadRow (hs : w.store = .database db) (hbad : db.HasBadRow key) :
    (reindex key).Attains World.alone (Spoilt (.database db)) w := by
  refine Script.attains_bind.2 ((attains_locked ⟨⟨_, rfl⟩, hs⟩ (attains_bind.2 ?_)).mono
    fun r w' h => attains_record_alone h)
  exact attains_loadIssue_of_hasBadRow hs hbad fun e => ⟨rfl, ⟨e, rfl⟩, hs⟩

theorem attains_indexAll_of_hasBadRow (hs : w.store = .database db) (hbad : db.HasBadRow key) :
    indexAll.Attains World.alone (Spoilt (.database db)) w := by
  have hrebuild : rebuild.Attains World.alone (Spoilt (.database db)) w := by
    refine attains_bind.2 (attains_store_of_error ?_ fun e => ⟨⟨e, rfl⟩, hs⟩)
    rw [hs]
    exact hbad.selectAll w.clock
  exact Script.attains_bind.2 (hrebuild.mono fun r w' h => attains_record_alone h)

theorem ServiceCall.attains_of_meets (limits : ServiceLimits) {c : ServiceCall}
    (hs : w.store = .database db) (h : c.Meets db) :
    (c.script limits).Attains World.alone (Spoilt (.database db)) w := by
  have hmap {α : Type} (f : α → IssueDoc ⊕ Nat) {r : Except ServiceError α} {w' : World}
      (hr : Spoilt (.database db) r w') : Spoilt (.database db) (r.map f) w' := by
    obtain ⟨⟨e, rfl⟩, hstore⟩ := hr
    exact ⟨⟨e, rfl⟩, hstore⟩
  rcases c with (⟨principal, key, m⟩ | ⟨principal, q⟩ | key) | _
  · exact Script.attains_bind.2 ((attains_mutate_of_hasBadRow hs h).mono fun r w' => hmap _)
  · exact h.elim
  · exact Script.attains_bind.2 ((attains_reindex_of_hasBadRow hs h).mono fun r w' => hmap _)
  · obtain ⟨key, hbad⟩ := h
    exact Script.attains_bind.2 ((attains_indexAll_of_hasBadRow hs hbad).mono fun r w' => hmap _)

/-! ## Tampering altogether -/

/-- A row that passes its checks fails them once a column is set apart from the payload. -/
theorem Database.hasBadRow_of_editRow {db db' : Database} {t : KeyMap .issue IssueRow}
    {key : IssueKey} {r : IssueRow} {i : Issue} {f : IssueRow → IssueRow} {n : Nat}
    (ht : db.issues = some t) (hr : t.get? key = some r) (hpass : r.Passes key i)
    (hpayload : (f r).payload = r.payload) (hne : f r ≠ r)
    (h : db.editRow key f = .ok (n, db')) : db'.HasBadRow key := by
  unfold Database.editRow at h
  rw [Database.issueTable_eq_ok.2 ht, ok_bind, hr] at h
  obtain ⟨-, rfl⟩ := Prod.mk.inj (pure_eq_ok.1 h)
  refine ⟨_, f r, rfl, KeyMap.get?_insert_self _ _ _, fun j hj => ?_⟩
  exact hne (hpass.eq_of_payload_eq hj hpayload).2

/-- Whatever the tables hold, reading calls answer by the checks, a changelog in the order of its
numbers, and calls of the service that meet a bad row end with the error of the store and leave the
tables as they were, be they tampered with between the steps or not. -/
theorem tampered_tables_fail_closed (db : Database) :
    (∀ now, db.AnswersChecked now) ∧
      (∀ (limits : ServiceLimits) (c : ServiceCall), c.Meets db →
        ∀ (w : World) (fs : List (Option Refusal)), w.store = .database db → ∃ e w',
          (c.script limits).run w (refusals fs) = (.returned (.error e), w') ∧
            e.kind = .storeUnavailable ∧ w'.store = .database db) ∧
      ∀ (limits : ServiceLimits) (c : ServiceCall) (w : World) (is : List Incident),
        ∀ m ∈ ((c.script limits).runTampered w is).2, m.MeetsBadRow →
          (∃ e, ((c.script limits).runTampered w is).1 = .error e ∧ e.kind = .storeUnavailable) ∧
            ∀ m' ∈ ((c.script limits).runTampered w is).2, m'.after.store = m'.world.store := by
  refine ⟨db.answersChecked, ?_, ?_⟩
  · intro limits c hmeets w fs hs
    obtain ⟨r, w', hrun, ⟨e, rfl⟩, hstore⟩ := (c.attains_of_meets limits hs hmeets).runFrom [] fs
    exact ⟨_, w', hrun, rfl, hstore⟩
  · intro limits c w is m hm hbad
    obtain ⟨⟨e, he⟩, hstores⟩ := c.closes_on_bad_row limits w is hm hbad
    exact ⟨⟨_, he, rfl⟩, hstores⟩

/-- An entry of the changelog of issue `a`. -/
def sampleEntry (user : String) : IssueChange := ⟨⟨"a"⟩, ⟨user⟩, ⟨0⟩, []⟩

/-- A payload of an entry, with a further member that holds a byte of no character. -/
def samplePayload : ByteArray :=
  "\x7b\"by\":\"".toUTF8.push 0xFF ++
    "\",\"issue_key\":\"a\",\"user\":\"ada\",\"created_at\":0,\"diffs\":[]\x7d".toUTF8

/-- A database with the row of an issue, and two rows of its changelog that do not lie in the order
of their numbers. -/
def sampleKept : Database where
  versions := [Database.layoutVersion]
  issues := some ((∅ : KeyMap .issue IssueRow).insert ⟨"a"⟩ (.of (sampleIssue "a")))
  changes := some {
    rows := [
      ⟨7, ⟨"a"⟩, ⟨0⟩, .blob (jsonText (sampleEntry "bob")).toUTF8⟩,
      ⟨-3, ⟨"a"⟩, ⟨0⟩, .blob samplePayload⟩]
    lastId := 7
    nodup := by decide
    le_lastId := by simp }

/-- The database with the second stamp of the row set apart from its payload. -/
def sampleTampered : Database :=
  { sampleKept with
    issues := sampleKept.issues.map fun t =>
      t.insert ⟨"a"⟩ { IssueRow.of (sampleIssue "a") with updatedAt := ⟨2000⟩ } }

theorem edit_sampleKept : sampleKept.edit (.updatedAt ⟨"a"⟩ ⟨2000⟩) = .ok (1, sampleTampered) := rfl

theorem hasBadRow_sampleTampered : sampleTampered.HasBadRow ⟨"a"⟩ := by
  have hsize : (jsonText (sampleIssue "a")).toUTF8.size ≤ maxPayloadBytes := by
    rw [Payload.size_toUTF8_jsonText]
    decide +kernel
  have hkeeps : Payload.Keeps (sampleIssue "a") :=
    Payload.keeps_issue hsize (by simp [sampleIssue, Issue.fresh])
  have hpass := IssueRow.passes_reread (IssueRow.ofIssue_eq hkeeps)
  exact Database.hasBadRow_of_editRow (f := fun r => { r with updatedAt := ⟨2000⟩ }) rfl
    (KeyMap.get?_insert_self _ _ _) hpass rfl (by decide) edit_sampleKept

theorem passes_samplePayload (number : Int) :
    ChangeRow.Passes ⟨"a"⟩ ⟨number, ⟨"a"⟩, ⟨0⟩, .blob samplePayload⟩ (sampleEntry "ada") :=
  ⟨⟨_, rfl, by decide +kernel, by decide +kernel⟩, rfl⟩

theorem passes_sampleEntry (number : Int) (user : String)
    (hsize : (jsonText (sampleEntry user)).toUTF8.size ≤ maxPayloadBytes) :
    ChangeRow.Passes ⟨"a"⟩ ⟨number, ⟨"a"⟩, ⟨0⟩, .blob (jsonText (sampleEntry user)).toUTF8⟩
      (sampleEntry user) :=
  ⟨⟨_, rfl, hsize, (ofJsonBytes?_toUTF8 _).trans (Payload.keeps_change hsize).read⟩, rfl⟩

/-- The entries are listed in the order of their numbers.  A change of the row fails, and so does a
rebuilding of the index if the table is tampered with just before it. -/
theorem tampered_tables_fail_closed_sample :
    let change : ServiceCall := .issue (.change ⟨⟨"ada"⟩, []⟩ ⟨"a"⟩ (.setSeverity .blocker))
    let tampering : Incident :=
      { meddling := fun w => { w with store := .database sampleTampered } }
    (sampleTampered.perform ⟨0⟩ (.selectChanges ⟨"a"⟩)).1 =
        .ok [sampleEntry "ada", sampleEntry "bob"] ∧
      (∃ e w', (change.script {}).run { store := .database sampleTampered } (refusals []) =
        (.returned (.error e), w') ∧ e.kind = .storeUnavailable ∧
          w'.store = .database sampleTampered) ∧
      ∃ e, ((ServiceCall.indexAll.script {}).runTampered {} [tampering]).1 = .error e ∧
        e.kind = .storeUnavailable := by
  intro change tampering
  obtain ⟨hanswers, hmeets, hmet⟩ := tampered_tables_fail_closed sampleTampered
  have hsize : (jsonText (sampleEntry "bob")).toUTF8.size ≤ maxPayloadBytes := by
    rw [Payload.size_toUTF8_jsonText]
    decide +kernel
  have hpass := List.Forall₂.cons (passes_samplePayload (-3))
    (.cons (passes_sampleEntry 7 "bob" hsize) .nil)
  have hlog := ((hanswers ⟨0⟩).selectChanges ⟨"a"⟩ _).2
    ⟨_, _, rfl, fun r => by simp; grind, by simp, hpass⟩
  refine ⟨hlog, hmeets {} change hasBadRow_sampleTampered _ [] rfl, ?_⟩
  obtain ⟨next, hscript⟩ :
      ∃ next, ServiceCall.indexAll.script {} = .ask (.store .selectAll) next := ⟨_, rfl⟩
  have hmoment := Script.mem_runTampered hscript {} tampering []
  refine (hmet {} .indexAll {} [tampering] _ hmoment ?_).1
  exact ⟨sampleTampered, ⟨"a"⟩, rfl, hasBadRow_sampleTampered, .inr rfl⟩

end Service

end Triage
