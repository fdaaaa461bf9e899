import Triage.Proofs.Lock
import Triage.Proofs.Service.Refusal
import Triage.Service.Creation
import Triage.Service.Reindex

/-!
# Where a call can end

A change of an issue, a manual issue and a reindexed issue each write one row and then its document.
Such a call ends before the row is stored, with nothing changed; after it, with an error of the
index; or with the document of the row.  Any call of a collaborator may be refused on the way.
-/

namespace Triage

namespace Index

theorem get?_put (x : Index) (d : IssueDoc) (key : IssueKey) :
    (x.put d).get? key = if d.key = key then some d else x.get? key :=
  KeyMap.get?_insert x.docs d.key key d

@[simp]
theorem get?_put_self (x : Index) (d : IssueDoc) : (x.put d).get? d.key = some d := by
  rw [get?_put, if_pos rfl]

theorem get?_remove (x : Index) (key key' : IssueKey) :
    (x.remove key).get? key' = if key = key' then none else x.get? key' :=
  KeyMap.get?_erase x.docs key key'

theorem mem_keys_iff {x : Index} {key : IssueKey} : key ∈ x.keys ↔ (x.get? key).isSome :=
  KeyMap.mem_keys_iff

end Index

namespace World

/-- Where a call from `w` can end that writes a row, if `Writes` tells the rows that it may write
and the stores after that. -/
inductive Exit (w : World) (Writes : Issue → Store → Prop) :
    Except ServiceError IssueDoc → Store → Index → Prop
  | refused {e : ServiceError} (he : e.kind ≠ .indexUnavailable) :
    Exit w Writes (.error e) w.store w.index
  | diverged {row : Issue} {s : Store} {x : Index} (e : IndexError) (hw : Writes row s)
    (hx : x = w.index ∨ x = w.index.put row.doc) : Exit w Writes (.error (.index e)) s x
  | applied {row : Issue} {s : Store} (hw : Writes row s) :
    Exit w Writes (.ok row.doc) s (w.index.put row.doc)

section

variable {w : World} {Writes : Issue → Store → Prop} {s : Store} {x : Index}

theorem Exit.of_ok {d : IssueDoc} (h : w.Exit Writes (.ok d) s x) :
    ∃ row, Writes row s ∧ d = row.doc ∧ x = w.index.put row.doc := by
  cases h with
  | applied hw => exact ⟨_, hw, rfl, rfl⟩

/-- An error of another kind than the index's comes before the write of the row. -/
theorem Exit.of_error {e : ServiceError} (h : w.Exit Writes (.error e) s x)
    (he : e.kind ≠ .indexUnavailable) : s = w.store ∧ x = w.index := by
  cases h with
  | refused => exact ⟨rfl, rfl⟩
  | diverged => exact absurd rfl he

/-- An error of the index comes after it. -/
theorem Exit.of_indexUnavailable {e : ServiceError} (h : w.Exit Writes (.error e) s x)
    (he : e.kind = .indexUnavailable) :
    ∃ row, Writes row s ∧ (x = w.index ∨ x = w.index.put row.doc) := by
  cases h with
  | refused hne => exact absurd he hne
  | diverged e hw hx => exact ⟨_, hw, hx⟩

end

/-- Only the store and the index of the world matter, and the rows that may be written. -/
theorem Exit.of_eq {w w₁ : World} {Writes Writes₁ : Issue → Store → Prop}
    {r : Except ServiceError IssueDoc} {s : Store} {x : Index} (h : w₁.Exit Writes₁ r s x)
    (hs : w₁.store = w.store) (hx : w₁.index = w.index)
    (hw : ∀ row s, Writes₁ row s → Writes row s) : w.Exit Writes r s x := by
  cases h with
  | refused he =>
    rw [hs, hx]
    exact .refused he
  | diverged e hrow hx' =>
    rw [hx] at hx'
    exact .diverged e (hw _ _ hrow) hx'
  | applied hrow =>
    rw [hx]
    exact .applied (hw _ _ hrow)

/-- Whether the worlds agree in all but the store, the index and the number of keys drawn. -/
structure Frames (w w' : World) : Prop where
  gate : w'.gate = w.gate
  catalog : w'.catalog = w.catalog
  locks : w'.locks = w.locks
  clock : w'.clock = w.clock
  audit : w'.audit = w.audit

theorem Frames.refl (w : World) : w.Frames w := ⟨rfl, rfl, rfl, rfl, rfl⟩

/-- Whether a call from `w` that writes a row may have come to `r` and `w'`, with nothing else
touched. -/
def Reaches (w : World) (Writes : Issue → Store → Prop) (r : Except ServiceError IssueDoc)
    (w' : World) : Prop :=
  w.Frames w' ∧ w.Exit Writes r w'.store w'.index

end World

open World (alone)

/-! ## Calls of the collaborators -/

namespace Attempt

variable {w : World}

theorem attains_authorize_alone {p : Principal} {op : Operation} {project : ProjectKey}
    {Q : Except ServiceError Unit → World → Prop} (hok : Q (.ok ()) w)
    (herr : Q (.error .forbidden) w) : (authorize p op project).Attains alone Q w := by
  refine attains_authorize.2 ⟨trivial, fun r w' h => ?_⟩
  obtain ⟨-, rfl⟩ := h.permits
  split_ifs
  · exact hok
  · exact herr

theorem consults_alone (w : World) : alone.Consults w fun c a => a = w.catalog.answer c :=
  ⟨fun _ => trivial, fun _ _ _ h => h.catalog⟩

theorem attains_updateWithChange {i : Issue} {user : Login} {diffs : List FieldDiff}
    {Q : Except ServiceError Issue → World → Prop}
    (hok : ∀ row s', w.store.Updates s' w.clock i row user diffs →
      Q (.ok row) { w with store := s' })
    (herr : ∀ e : ServiceError, e.kind ≠ .indexUnavailable → Q (.error e) w) :
    (store (.updateWithChange i user diffs)).Attains alone Q w := by
  refine attains_store.2 ⟨trivial, fun r w' h => ?_⟩
  rcases h.updateWithChange with ⟨e, rfl, rfl⟩ | ⟨row, s', rfl, hu, rfl⟩
  · exact herr _ nofun
  · exact hok row s' hu

theorem attains_insert {issues : List Issue} {Q : Except ServiceError (List Issue) → World → Prop}
    (hok : ∀ rows s', w.store.Inserts s' w.clock issues rows →
      Q (.ok rows) { w with store := s' })
    (herr : ∀ e : ServiceError, e.kind ≠ .indexUnavailable → Q (.error e) w) :
    (store (.insert issues)).Attains alone Q w := by
  refine attains_store.2 ⟨trivial, fun r w' h => ?_⟩
  rcases h.insert with ⟨e, rfl, rfl⟩ | ⟨rows, s', rfl, hi, rfl⟩
  · exact herr _ nofun
  · exact hok rows s' hi

theorem attains_freshKey_alone {Q : Except ServiceError IssueKey → World → Prop}
    (h : Q (.ok (World.nthKey w.keysDrawn)) { w with keysDrawn := w.keysDrawn + 1 }) :
    freshKey.Attains alone Q w := by
  refine attains_freshKey.2 ⟨trivial, fun key w' hr => ?_⟩
  obtain ⟨rfl, rfl⟩ := hr.freshKey
  exact h

end Attempt

namespace Service

open Attempt

variable {w : World}

theorem attains_loadIssue {key : IssueKey} {Q : Except ServiceError Issue → World → Prop}
    (hok : ∀ c i, w.store.cell? key = some c → c.read key = .ok i → Q (.ok i) w)
    (herr : ∀ e : ServiceError, e.kind ≠ .indexUnavailable → Q (.error e) w) :
    (loadIssue key).Attains alone Q w := by
  refine attains_bind.2 (attains_store.2 ⟨trivial, fun r w' h => ?_⟩)
  obtain ⟨rfl, hr⟩ := h.selectByKey
  cases r with
  | error e => exact herr _ nofun
  | ok o =>
    refine attains_found_of (fun i hi => ?_) (herr _ nofun)
    rcases Store.selectByKey_eq_ok (hr o rfl) with ⟨rfl, -⟩ | ⟨c, i', rfl, hc, hread⟩
    · cases hi
    · cases hi
      exact hok c i hc hread

section

variable {σ : Type} {D : Dialogue σ} {s : σ} {Known : (c : CatalogCall) → c.Answer → Prop}

/-- An attempt on a thing that is found with its project. -/
theorem attains_inProject_of {α : Type} {find : Attempt (α × ProjectKey)}
    {rest : α → ProjectKey → Attempt IssueDoc} {Q : Mutated → σ → Prop}
    (h : find.Attains D (fun
      | .ok a, s => (rest a.1 a.2).Attains D (fun r => Q ⟨some a.2, r⟩) s
      | .error e, s => Q ⟨none, .error e⟩ s) s) :
    (inProject find rest).Attains D Q s := by
  refine Script.attains_bind.2 (h.mono fun r s' hr => ?_)
  cases r with
  | error e => exact hr
  | ok a => exact Script.attains_bind.2 hr

theorem attains_inProject {α : Type} {find : Attempt (α × ProjectKey)}
    {rest : α → ProjectKey → Attempt IssueDoc} {Q : Except ServiceError IssueDoc → σ → Prop}
    (h : find.Attains D (Then D (fun a => rest a.1 a.2) Q) s) :
    (inProject find rest).Attains D (fun mutated => Q mutated.result) s :=
  attains_inProject_of (h.mono fun r _ hr => by cases r <;> exact hr)

theorem attains_findProject_of (h : D.Consults s Known) {uuid : ProjectUuid}
    {Q : Except ServiceError ProjectKey → σ → Prop}
    (hok : ∀ root, Known (.project uuid) (some root) → Q (.ok root.projectKey) s)
    (herr : ∀ e : ServiceError, e.kind = .notFound ∨ e.kind = .catalogUnavailable →
      Q (.error e) s) : (findProject uuid).Attains D Q s := by
  refine attains_bind.2 (attains_consult h (fun found hfound => ?_) fun e => herr _ (.inr rfl))
  refine attains_bind.2 (attains_found_of (fun root hroot => ?_) (herr _ (.inl rfl)))
  exact hok root (hroot ▸ hfound)

theorem attains_findComponent_of (h : D.Consults s Known) {key : ComponentKey}
    {Q : Except ServiceError (Component × ProjectKey) → σ → Prop}
    (hok : ∀ component root, Known (.component key) (some component) →
      Known (.project component.projectUuid) (some root) →
      Q (.ok (component, root.projectKey)) s)
    (herr : ∀ e : ServiceError, e.kind = .notFound ∨ e.kind = .catalogUnavailable →
      Q (.error e) s) : (findComponent key).Attains D Q s := by
  refine attains_bind.2 (attains_consult h (fun found hfound => ?_) fun e => herr _ (.inr rfl))
  refine attains_bind.2 (attains_found_of (fun component hc => ?_) (herr _ (.inl rfl)))
  rw [hc] at hfound
  exact attains_bind.2
    (attains_findProject_of h (fun root hroot => hok component root hfound hroot) herr)

theorem kind_ne_indexUnavailable {e : ServiceError}
    (he : e.kind = .notFound ∨ e.kind = .catalogUnavailable) : e.kind ≠ .indexUnavailable := by
  rcases he with he | he <;> rw [he] <;> nofun

theorem attains_findProject (h : D.Consults s Known) {uuid : ProjectUuid}
    {Q : Except ServiceError ProjectKey → σ → Prop} (hok : ∀ p, Q (.ok p) s)
    (herr : ∀ e : ServiceError, e.kind ≠ .indexUnavailable → Q (.error e) s) :
    (findProject uuid).Attains D Q s :=
  attains_findProject_of h (fun root _ => hok root.projectKey)
    fun e he => herr e (kind_ne_indexUnavailable he)

theorem attains_findComponent (h : D.Consults s Known) {key : ComponentKey}
    {Q : Except ServiceError (Component × ProjectKey) → σ → Prop}
    (hok : ∀ component p, Known (.component key) (some component) → Q (.ok (component, p)) s)
    (herr : ∀ e : ServiceError, e.kind ≠ .indexUnavailable → Q (.error e) s) :
    (findComponent key).Attains D Q s :=
  attains_findComponent_of h (fun component root hc _ => hok component root.projectKey hc)
    fun e he => herr e (kind_ne_indexUnavailable he)

theorem attains_findManualRule (h : D.Consults s Known) {key : RuleKey}
    {Q : Except ServiceError Rule → σ → Prop}
    (hok : ∀ rule, Known (.rule key) (some rule) → Q (.ok rule) s)
    (herr : ∀ e : ServiceError, e.kind ≠ .indexUnavailable → Q (.error e) s) :
    (findManualRule key).Attains D Q s := by
  refine attains_bind.2 (attains_consult h (fun found hfound => ?_) fun e => herr _ nofun)
  refine attains_bind.2 (attains_found_of (fun rule hr => ?_) (herr _ nofun))
  rw [hr] at hfound
  dsimp only [Then]
  split_ifs
  · exact hok rule hfound
  · exact herr _ nofun

end

/-- The indexing of a row that is stored: the document is there, or the index has failed. -/
theorem attains_indexRow {row : Issue} {Q : Except ServiceError IssueDoc → World → Prop}
    (hok : Q (.ok row.doc) { w with index := w.index.put row.doc })
    (herr : ∀ e x, (x = w.index ∨ x = w.index.put row.doc) →
      Q (.error (.index e)) { w with index := x }) :
    (indexRow row).Attains alone Q w := by
  refine attains_bind.2 (attains_index.2 ⟨trivial, fun r w' h => ?_⟩)
  rcases h.index with ⟨e, rfl, rfl⟩ | ⟨rfl, rfl⟩
  · exact herr e _ (.inl rfl)
  · refine attains_bind.2 (attains_index.2 ⟨trivial, fun r w' h => ?_⟩)
    rcases h.index with ⟨e, rfl, rfl⟩ | ⟨rfl, rfl⟩
    · exact herr e _ (.inr rfl)
    · refine attains_found.2 ⟨fun d hd => ?_, fun hd => ?_⟩
      · obtain rfl : row.doc = d :=
          Option.some.inj ((Index.get?_put_self w.index row.doc).symm.trans hd)
        exact hok
      · cases (Index.get?_put_self w.index row.doc).symm.trans hd

/-! ## Changes of an issue -/

/-- The row that a change makes of `i`, if it can be made; the catalog is not asked. -/
def Mutation.changed (limits : ServiceLimits) (i : Issue) : Mutation → Except ServiceError Issue
  | .transition t => applyTransition i t
  | .assign login => .ok { i with assignee := identifier? login }
  | .plan key => .ok { i with actionPlanKey := identifier? key }
  | .setSeverity s => .ok { i with severity := s }
  | .setTags entries =>
    match Tags.normalize entries limits.maxTagsPerIssue with
    | .ok tags => .ok { i with tags := tags }
    | .error e => .error (.tags e)

/-- Whether a change of the issue at `key` may store `row` and leave the store `s'`. -/
def Changes (limits : ServiceLimits) (principal : Principal) (key : IssueKey) (m : Mutation)
    (w : World) (row : Issue) (s' : Store) : Prop :=
  ∃ c old changed, w.store.cell? key = some c ∧ c.read key = .ok old ∧
    m.changed limits old = .ok changed ∧
    w.store.Updates s' w.clock changed row principal.login (old.diffs changed)

variable {limits : ServiceLimits} {principal : Principal} {m : Mutation}

theorem Mutation.kind_of_changed_eq_error {i : Issue} {e : ServiceError}
    (h : m.changed limits i = .error e) : e.kind ≠ .indexUnavailable := by
  cases m <;> simp only [changed, applyTransition, reduceCtorEq] at h
  all_goals
    split at h <;> cases h
    nofun

theorem Mutation.key_of_changed_eq_ok {i j : Issue} (h : m.changed limits i = .ok j) :
    j.key = i.key := by
  cases m <;> simp only [changed, applyTransition] at h
  case transition | setTags => split at h <;> cases h; rfl
  all_goals cases h; rfl

section

variable {σ : Type} {D : Dialogue σ} {s : σ} {Known : (c : CatalogCall) → c.Answer → Prop}
  {i : Issue} {Q : Except ServiceError Issue → σ → Prop}

theorem Mutation.attains_applyAssignee (h : D.Consults s Known) {assignee : Option Login}
    (hok : Q (.ok { i with assignee := assignee }) s)
    (herr : ∀ e : ServiceError, e.kind ≠ .indexUnavailable → Q (.error e) s) :
    (applyAssignee i assignee).Attains D Q s := by
  cases assignee with
  | none => exact hok
  | some login =>
    refine attains_bind.2 (attains_consult h (fun found _ => ?_) fun e => herr _ nofun)
    exact attains_bind.2 (attains_found_of (fun _ _ => hok) (herr _ nofun))

theorem Mutation.attains_applyPlan (h : D.Consults s Known) {plan : Option ActionPlanKey}
    (hok : Q (.ok { i with actionPlanKey := plan }) s)
    (herr : ∀ e : ServiceError, e.kind ≠ .indexUnavailable → Q (.error e) s) :
    (applyPlan i plan).Attains D Q s := by
  cases plan with
  | none => exact hok
  | some key =>
    refine attains_bind.2 (attains_consult h (fun found _ => ?_) fun e => herr _ nofun)
    exact attains_bind.2 (attains_found_of (fun _ _ => hok) (herr _ nofun))

theorem Mutation.attains_apply (h : D.Consults s Known)
    (hok : ∀ j, m.changed limits i = .ok j → Q (.ok j) s)
    (herr : ∀ e : ServiceError, e.kind ≠ .indexUnavailable → Q (.error e) s) :
    (m.apply limits i).Attains D Q s := by
  have hpure : ∀ r, m.changed limits i = r → Q r s := by
    rintro (e | j) hr
    · exact herr e (kind_of_changed_eq_error hr)
    · exact hok j hr
  cases m with
  | transition t => exact hpure _ rfl
  | assign login => exact attains_applyAssignee h (hok _ rfl) herr
  | plan key => exact attains_applyPlan h (hok _ rfl) herr
  | setSeverity s => exact hok _ rfl
  | setTags entries => exact hpure _ rfl

end

theorem attains_changeRow {key : IssueKey} {c : Cell} {old : Issue}
    (hc : w.store.cell? key = some c) (hread : c.read key = .ok old) (project : ProjectKey) :
    (changeRow limits principal m old project).Attains alone
      (w.Reaches (Changes limits principal key m w)) w := by
  have refused (e : ServiceError) (he : e.kind ≠ .indexUnavailable) :
      w.Reaches (Changes limits principal key m w) (.error e) w := ⟨.refl w, .refused he⟩
  unfold changeRow
  refine attains_bind.2 (attains_authorize_alone ?_ (refused _ nofun))
  refine attains_bind.2
    (Mutation.attains_apply (consults_alone w) (fun changed hchanged => ?_) refused)
  refine attains_bind.2 (attains_updateWithChange (fun row s' hu => ?_) refused)
  have hw : Changes limits principal key m w row s' := ⟨c, old, changed, hc, hread, hchanged, hu⟩
  exact attains_indexRow ⟨⟨rfl, rfl, rfl, rfl, rfl⟩, .applied hw⟩
    fun e x hx => ⟨⟨rfl, rfl, rfl, rfl, rfl⟩, .diverged e hw hx⟩

theorem attains_mutateLocked (key : IssueKey) :
    (mutateLocked limits principal key m).Attains alone
      (fun mutated => w.Reaches (Changes limits principal key m w) mutated.result) w := by
  have refused (e : ServiceError) (he : e.kind ≠ .indexUnavailable) :
      w.Reaches (Changes limits principal key m w) (.error e) w := ⟨.refl w, .refused he⟩
  refine attains_inProject (attains_bind.2 (attains_loadIssue (fun c old hc hread => ?_) refused))
  exact attains_bind.2
    (attains_findProject (consults_alone w) (fun p => attains_changeRow hc hread p) refused)

/-! ## Manual issues -/

/-- Whether a creation may store `row` and leave the store `s'`. -/
def Raises (principal : Principal) (q : ManualIssueRequest) (w : World) (row : Issue)
    (s' : Store) : Prop :=
  ∃ component rule, w.catalog.component? q.componentKey = some component ∧
    w.catalog.rules.get? q.ruleKey = some rule ∧
    w.store.Inserts s' w.clock
      [q.issue (World.nthKey w.keysDrawn) component rule principal.login] [row]

variable {q : ManualIssueRequest}

theorem attains_raiseIssue {component : Component}
    (hc : some component = w.catalog.component? q.componentKey) (project : ProjectKey) :
    (raiseIssue limits principal q component project).Attains alone
      (w.Reaches (Raises principal q w)) w := by
  have refused (e : ServiceError) (he : e.kind ≠ .indexUnavailable) :
      w.Reaches (Raises principal q w) (.error e) w := ⟨.refl w, .refused he⟩
  unfold raiseIssue
  refine attains_bind.2 (attains_authorize_alone ?_ (refused _ nofun))
  refine attains_bind.2 (attains_findManualRule (consults_alone w) (fun rule hrule => ?_) refused)
  dsimp only [Then]
  split_ifs
  · refine attains_bind.2 (attains_freshKey_alone ?_)
    refine attains_bind.2 (attains_insert (fun rows s' hi => ?_) fun e he =>
      ⟨⟨rfl, rfl, rfl, rfl, rfl⟩, .refused he⟩)
    have hrows := hi.rows_eq
    rw [List.map_singleton] at hrows
    subst hrows
    have hw : Raises principal q w _ s' := ⟨component, rule, hc.symm, hrule.symm, hi⟩
    refine attains_bind.2 (attains_found.2 ⟨?_, nofun⟩)
    rintro _ ⟨⟩
    exact attains_indexRow ⟨⟨rfl, rfl, rfl, rfl, rfl⟩, .applied hw⟩
      fun e x hx => ⟨⟨rfl, rfl, rfl, rfl, rfl⟩, .diverged e hw hx⟩
  · exact attains_bind.2 (refused _ nofun)

/-- A script under the lock of a key, which it leaves again unless the lock is poisoned. -/
theorem attains_locked {α : Type} {key : IssueKey} {refused : α} {body : Script α}
    {Q : α → World → Prop}
    (hrefused : Q refused { w with locks := w.locks.passed key })
    (hbody : body.Attains alone (fun a w' => w'.locks = (w.locks.enter key).2 ∧
      Q a { w' with locks := w.locks.passed key }) { w with locks := (w.locks.enter key).2 }) :
    (locked key refused body).Attains alone Q w := by
  refine Script.attains_bind.2 (Script.attains_single.2 ⟨trivial, fun r w' h => ?_⟩)
  obtain ⟨rfl, rfl⟩ := h.enter
  unfold LockTable.passed at hrefused hbody
  split_ifs with hp
  · rw [if_pos hp] at hbody
    refine Script.attains_bind.2 (hbody.mono fun a w' hr => ?_)
    refine Script.attains_bind.2 (Script.attains_single.2 ⟨trivial, fun r w'' h => ?_⟩)
    obtain rfl := h.leave
    rw [hr.1]
    exact hr.2
  · rw [if_neg hp] at hrefused
    exact hrefused

/-! ## The calls -/

/-- Whether a reindexing stores `row` and leaves the store `s'`: the row is there, and the store
stays. -/
def Rereads (key : IssueKey) (w : World) (row : Issue) (s' : Store) : Prop :=
  s' = w.store ∧ ∃ c, w.store.cell? key = some c ∧ c.read key = .ok row

/-- A call that writes one row and its document. -/
inductive IssueCall
  | change (principal : Principal) (key : IssueKey) (m : Mutation)
  | create (principal : Principal) (q : ManualIssueRequest)
  | reindex (key : IssueKey)

namespace IssueCall

/-- The work of the call. -/
def script (limits : ServiceLimits) : IssueCall → Script (Except ServiceError IssueDoc)
  | change principal key m => mutate limits principal key m
  | create principal q => Service.create limits principal q
  | reindex key => Service.reindex key

/-- Whether the call may write `row` in the world `w` and leave the store `s'`. -/
def Writes (limits : ServiceLimits) (w : World) : IssueCall → Issue → Store → Prop
  | change principal key m => Changes limits principal key m w
  | create principal q => Raises principal q w
  | reindex key => Rereads key w

/-- Whether the event is one of the call with the result `r`. -/
def Reports (r : Except ServiceError IssueDoc) (e : AuditEvent) : IssueCall → Prop
  | change principal key m =>
    ∃ project, e = mutationEvent m.operation (some key) principal ⟨project, r⟩
  | create principal _ =>
    ∃ project, e = mutationEvent .createManualIssue (r.toOption.map (·.key)) principal ⟨project, r⟩
  | reindex key => e = reindexEvent .reindex (some key) r

/-- The locks after the call. -/
def locksAfter (t : LockTable) : IssueCall → LockTable
  | change _ key _ | reindex key => t.passed key
  | create _ _ => t

/-- What the call comes to: an exit, one event, and the locks as it leaves them. -/
structure Ends (limits : ServiceLimits) (w : World) (c : IssueCall)
    (r : Except ServiceError IssueDoc) (w' : World) : Prop where
  exit : w.Exit (c.Writes limits w) r w'.store w'.index
  audit : ∃ e, c.Reports r e ∧ w'.audit = w.audit.record w.auditStamp e
  locks : w'.locks = c.locksAfter w.locks
  clock : w'.clock = w.clock

theorem attains_record {e : AuditEvent} {r : Except ServiceError IssueDoc}
    {Q : Except ServiceError IssueDoc → World → Prop}
    (h : Q r { w with audit := w.audit.record w.auditStamp e }) :
    (do Script.single (.record e); return r : Script _).Attains alone Q w := by
  refine Script.attains_bind.2 (Script.attains_single.2 ⟨trivial, fun _ w' hr => ?_⟩)
  obtain rfl := hr.record
  exact h

theorem attains_script (limits : ServiceLimits) (c : IssueCall) (w : World) :
    (c.script limits).Attains alone (c.Ends limits w) w := by
  cases c with
  | change principal key m =>
    refine Script.attains_bind.2 (attains_locked ?_ ?_)
    · refine attains_record ⟨.refused nofun, ⟨_, ⟨none, rfl⟩, rfl⟩, rfl, rfl⟩
    · refine (attains_mutateLocked key).mono fun mutated w' h => ⟨h.1.locks, ?_⟩
      have hexit : w.Exit (Changes limits principal key m w) mutated.result w'.store w'.index :=
        h.2.of_eq rfl rfl fun _ _ => id
      refine attains_record ⟨hexit, ⟨_, ⟨mutated.project, rfl⟩, ?_⟩, rfl, h.1.clock⟩
      simp only [World.auditStamp, h.1.clock, h.1.audit]
  | create principal q =>
    have refused (e : ServiceError) (he : e.kind ≠ .indexUnavailable) :
        w.Reaches (Raises principal q w) (.error e) w := ⟨.refl w, .refused he⟩
    have hraise : (inProject (findComponent q.componentKey) (raiseIssue limits principal q)).Attains
        alone (fun mutated => w.Reaches (Raises principal q w) mutated.result) w :=
      attains_inProject (attains_findComponent (consults_alone w)
        (fun component p hc => attains_raiseIssue hc p) refused)
    refine Script.attains_bind.2 (hraise.mono fun mutated w' h => ?_)
    refine attains_record ⟨h.2, ⟨_, ⟨mutated.project, rfl⟩, ?_⟩, h.1.locks, h.1.clock⟩
    simp only [World.auditStamp, h.1.clock, h.1.audit]
  | reindex key =>
    refine Script.attains_bind.2 (attains_locked ?_ ?_)
    · exact attains_record ⟨.refused nofun, ⟨_, rfl, rfl⟩, rfl, rfl⟩
    · refine attains_bind.2 (attains_loadIssue (fun c row hc hread => ?_) fun e he => ⟨rfl, ?_⟩)
      · have hw : Rereads key w row w.store := ⟨rfl, c, hc, hread⟩
        refine attains_indexRow ⟨rfl, ?_⟩ fun e x hx => ⟨rfl, ?_⟩
        · exact attains_record ⟨.applied hw, ⟨_, rfl, rfl⟩, rfl, rfl⟩
        · exact attains_record ⟨.diverged e hw hx, ⟨_, rfl, rfl⟩, rfl, rfl⟩
      · exact attains_record ⟨.refused he, ⟨_, rfl, rfl⟩, rfl, rfl⟩

end IssueCall

end Service

end Triage
