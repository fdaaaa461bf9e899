import Triage.Proofs.Service.Rebuild

/-!
# The conduct of a call

How far a call is with the key that it works on, and which calls of its collaborators it may make
there.  A document is indexed only by a call that knows its row: because it holds the lock of the
key, or because it has just raised the issue.  Every call of the service that writes to the index
keeps to this, whatever it is answered.
-/

namespace Triage

namespace Service

/-- How far a call is with the key that it works on.  It has none yet; a fresh key is drawn; the row
of that key is stored.  Or the lock of a key is held; its row is known as well, whose document may
be owed; or it is known to have no row. -/
inductive Phase
  | idle
  | drawn (key : IssueKey)
  | raised (row : Issue)
  | holding (key : IssueKey)
  | knowing (row : Issue) (owed : Bool)
  | missing (key : IssueKey)

namespace Phase

/-- The key whose lock is held. -/
def lock? : Phase → Option IssueKey
  | holding key | missing key => some key
  | knowing row _ => some row.key
  | _ => none

/-- The row that is known. -/
def row? : Phase → Option Issue
  | raised row | knowing row _ => some row
  | _ => none

/-- The key of the row that is stored and not yet indexed. -/
def owed? : Phase → Option IssueKey
  | raised row | knowing row true => some row.key
  | _ => none

/-- Whether nothing is begun that has to be completed. -/
def Settled : Phase → Prop
  | idle | holding _ | knowing _ false => True
  | _ => False

/-- Whether an issue is being raised: a key is drawn for it, or its row is stored. -/
def IsRaising : Phase → Prop
  | drawn _ | raised _ => True
  | _ => False

/-- The phase after the document of the row is indexed. -/
def paid : Phase → Phase
  | raised _ => idle
  | knowing row _ => knowing row false
  | p => p

end Phase

end Service

open Service (Phase)

/-- Whether the call tells nothing of any row. -/
def Call.IsQuiet : Call → Prop
  | .catalog _ | .permits _ _ _ | .record _ | .index (.get _) => True
  | _ => False

/-- Whether a collaborator that works may answer so: a row comes under the key that was asked for,
and the index does not fail. -/
def Call.Plausible : (c : Call) → c.Answer → Prop
  | .store (.insert issues), .ok rows => rows.map (·.key) = issues.map (·.key)
  | .store (.selectByKey key), .ok (some row) => row.key = key
  | .store (.updateWithChange i _ _), .ok row => row.key = i.key
  | .index _, .error _ => False
  | _, _ => True

/-- Whether the call may be made in the phase. -/
inductive Service.Phase.Permits : Phase → Call → Prop
  | quiet {p : Phase} {c : Call} (hp : p.Settled) (hc : c.IsQuiet) : Permits p c
  | freshKey : Permits .idle .freshKey
  | insert {key : IssueKey} {i : Issue} (h : i.key = key) :
    Permits (.drawn key) (.store (.insert [i]))
  | selectAll : Permits .idle (.store .selectAll)
  | keys : Permits .idle (.index .keys)
  | enter {key : IssueKey} : Permits .idle (.enter key)
  | leave {p : Phase} {key : IssueKey} (hp : p.Settled) (h : p.lock? = some key) :
    Permits p (.leave key)
  | selectByKey {key : IssueKey} : Permits (.holding key) (.store (.selectByKey key))
  | update {row i : Issue} {user : Login} {diffs : List FieldDiff} (h : i.key = row.key) :
    Permits (.knowing row false) (.store (.updateWithChange i user diffs))
  | put {p : Phase} {row : Issue} (h : p.row? = some row) : Permits p (.index (.put row.doc))
  | remove {key : IssueKey} : Permits (.missing key) (.index (.remove key))

namespace Service

/-- A call under way: its phase, the keys that it has listed in store and index, and the keys whose
rows it has stored. -/
structure Progress where
  phase : Phase := .idle
  listed : List IssueKey := []
  wrote : List IssueKey := []

/-- The progress after an answer. -/
def Progress.after (p : Progress) : (c : Call) → c.Answer → Progress
  | .freshKey, key => { p with phase := .drawn key }
  | .enter key, true => { p with phase := .holding key }
  | .leave _, _ => { p with phase := .idle }
  | .store .selectAll, .ok rows => { p with listed := rows.map (·.key) ++ p.listed }
  | .index .keys, .ok keys => { p with listed := keys ++ p.listed }
  | .store (.insert _), .ok (row :: _) =>
    { p with phase := .raised row, wrote := row.key :: p.wrote }
  | .store (.insert _), _ => { p with phase := .idle }
  | .store (.selectByKey _), .ok (some row) => { p with phase := .knowing row false }
  | .store (.selectByKey key), .ok none =>
    if key ∈ p.listed then { p with phase := .missing key } else p
  | .store (.updateWithChange _ _ _), .ok row =>
    { p with phase := .knowing row true, wrote := row.key :: p.wrote }
  | .index (.put _), .ok _ => { p with phase := p.phase.paid }
  | .index (.remove key), .ok _ => { p with phase := .holding key }
  | _, _ => p

/-- A call that draws no key raises no issue. -/
theorem Progress.not_isRaising_after {p : Progress} {c : Call} (hp : ¬p.phase.IsRaising)
    (hc : p.phase.Permits c) (hne : c ≠ .freshKey) (r : c.Answer) :
    ¬(p.after c r).phase.IsRaising := by
  obtain ⟨phase, listed, wrote⟩ := p
  cases hc with
  | quiet _ hquiet =>
    cases c with
    | catalog | permits | record => exact hp
    | index c =>
      cases c with
      | get => exact hp
      | put | remove | keys | search | listTags | facet => cases hquiet
    | store | freshKey | enter | leave => cases hquiet
  | freshKey => exact absurd rfl hne
  | insert => exact absurd trivial hp
  | selectAll | keys | remove | update => cases r <;> exact id
  | enter => cases r <;> exact id
  | leave => exact id
  | @selectByKey key =>
    rcases r with e | _ | row
    · exact id
    · unfold after
      dsimp only
      split_ifs <;> exact id
    · exact id
  | put hrow =>
    rcases r with e | u
    · exact hp
    · cases phase <;> first | exact id | cases hrow

/-- The dialogue of a call that keeps to its phases. -/
def conduct : Dialogue Progress where
  permits p c := p.phase.Permits c
  answers p c r p' := c.Plausible r ∧ p' = p.after c r

/-! ## Steps of the calls -/

open Attempt

variable {p : Progress} {key : IssueKey} {row : Issue}

theorem Phase.settled_paid {p : Phase} (h : p.row? = some row) : p.paid.Settled := by
  cases p with
  | raised | knowing => trivial
  | idle | drawn | holding | missing => cases h

theorem consults_conduct (p : Progress) (hp : p.phase.Settled) :
    conduct.Consults p fun _ _ => True :=
  ⟨fun _ => .quiet hp trivial, fun _ _ _ h => ⟨h.2, fun _ _ => trivial⟩⟩

theorem attains_authorize_conduct {principal : Principal} {op : Operation} {project : ProjectKey}
    {Q : Except ServiceError Unit → Progress → Prop} (hp : p.phase.Settled) (hQ : ∀ r, Q r p) :
    (authorize principal op project).Attains conduct Q p :=
  attains_authorize.2 ⟨.quiet hp trivial, fun _ _ h => h.2 ▸ hQ _⟩

theorem attains_record_conduct {α : Type} {e : AuditEvent} {a : α} {Q : α → Progress → Prop}
    (hp : p.phase.Settled) (hQ : Q a p) :
    (do Script.single (.record e); return a : Script α).Attains conduct Q p :=
  Script.attains_bind.2 (Script.attains_single.2 ⟨.quiet hp trivial, fun _ _ h => h.2 ▸ hQ⟩)

theorem attains_indexRow_conduct {Q : Except ServiceError IssueDoc → Progress → Prop}
    (h : p.phase.row? = some row) (hQ : ∀ r, Q r { p with phase := p.phase.paid }) :
    (indexRow row).Attains conduct Q p := by
  refine attains_bind.2 (attains_index.2 ⟨.put h, ?_⟩)
  rintro (e | u) _ ⟨hr, rfl⟩
  · exact hr.elim
  · refine attains_bind.2 (attains_index.2 ⟨.quiet (Phase.settled_paid h) trivial, ?_⟩)
    rintro (e | d) _ ⟨hr, rfl⟩
    · exact hr.elim
    · exact attains_found_of (fun d _ => hQ (.ok d)) (hQ _)

theorem attains_loadIssue_conduct {Q : Except ServiceError Issue → Progress → Prop}
    (hp : p.phase = .holding key) (hlisted : key ∉ p.listed)
    (hok : ∀ row : Issue, row.key = key → Q (.ok row) { p with phase := .knowing row false })
    (herr : ∀ e, Q (.error e) p) : (loadIssue key).Attains conduct Q p := by
  refine attains_bind.2 (attains_store.2 ⟨?_, ?_⟩)
  · change p.phase.Permits _
    rw [hp]
    exact .selectByKey
  · rintro (e | _ | row) _ ⟨hr, rfl⟩
    · exact herr _
    · rw [show p.after (.store (.selectByKey key)) (.ok none) = p from if_neg hlisted]
      exact herr (.unknownIssue key)
    · exact hok row hr

/-- Whether a call with the result `r` has stored a row of the key, unless it failed. -/
def Progress.Stores (key : IssueKey) (r : Except ServiceError IssueDoc) (p : Progress) : Prop :=
  ∀ d, r = .ok d → key ∈ p.wrote

theorem Progress.stores_error (key : IssueKey) (e : ServiceError) (p : Progress) :
    p.Stores key (.error e) :=
  fun d h => by cases h

/-- Whether nothing is left to do under the lock of the key. -/
def Progress.Rests (key : IssueKey) (p : Progress) : Prop :=
  p.phase.Settled ∧ p.phase.lock? = some key

theorem attains_locked_conduct {α : Type} {refused : α} {body : Script α}
    {Q : α → Progress → Prop} (hp : p.phase = .idle) (hrefused : Q refused p)
    (hbody : body.Attains conduct (fun a p' => p'.Rests key ∧ Q a { p' with phase := .idle })
      { p with phase := .holding key }) :
    (locked key refused body).Attains conduct Q p := by
  refine Script.attains_bind.2 (Script.attains_single.2 ⟨?_, ?_⟩)
  · change p.phase.Permits _
    rw [hp]
    exact .enter
  · rintro (_ | _) _ ⟨-, rfl⟩
    · exact hrefused
    · refine Script.attains_bind.2 (hbody.mono fun a p' h => ?_)
      refine Script.attains_bind.2 (Script.attains_single.2 ⟨.leave h.1.1 h.1.2, ?_⟩)
      rintro _ _ ⟨-, rfl⟩
      exact h.2

/-! ## The calls -/

variable {limits : ServiceLimits} {principal : Principal} {m : Mutation}

theorem attains_changeRow_conduct {listed wrote : List IssueKey} {current : Issue}
    (project : ProjectKey) :
    (changeRow limits principal m current project).Attains conduct
      (fun r p' => p'.Rests current.key ∧ p'.Stores current.key r)
      ⟨.knowing current false, listed, wrote⟩ := by
  have refused (e : ServiceError) :
      Progress.Rests current.key ⟨.knowing current false, listed, wrote⟩ ∧
        Progress.Stores current.key (.error e) ⟨.knowing current false, listed, wrote⟩ :=
    ⟨⟨trivial, rfl⟩, Progress.stores_error _ e _⟩
  unfold changeRow
  refine attains_bind.2 (attains_authorize_conduct trivial ?_)
  rintro (e | _)
  · exact refused e
  refine attains_bind.2 (Mutation.attains_apply (consults_conduct _ trivial)
    (fun changed hchanged => ?_) fun e _ => refused e)
  have hkey := Mutation.key_of_changed_eq_ok hchanged
  refine attains_bind.2 (attains_store.2 ⟨.update hkey, ?_⟩)
  rintro (e | row) _ ⟨hr, rfl⟩
  · exact refused _
  · have hrow : row.key = current.key := Eq.trans hr hkey
    refine attains_indexRow_conduct rfl fun r => ⟨⟨trivial, congrArg some hrow⟩, fun d _ => ?_⟩
    exact hrow ▸ List.mem_cons_self

theorem attains_mutate_conduct :
    (mutate limits principal key m).Attains conduct
      (fun r p' => p'.phase = .idle ∧ p'.Stores key r) {} := by
  refine Script.attains_bind.2 (attains_locked_conduct rfl ?_ ?_)
  · exact attains_record_conduct trivial ⟨rfl, Progress.stores_error _ _ _⟩
  · have hbody : (mutateLocked limits principal key m).Attains conduct
        (fun mutated p' => p'.Rests key ∧ p'.Stores key mutated.result)
        { phase := .holding key } := by
      refine attains_inProject (D := conduct) (Q := fun r p' => p'.Rests key ∧ p'.Stores key r)
        (attains_bind.2 (attains_loadIssue_conduct rfl (by simp) ?_ ?_))
      · rintro current rfl
        refine attains_bind.2 (attains_findProject
          (consults_conduct ⟨.knowing current false, [], []⟩ trivial) (fun project => ?_) ?_)
        · exact attains_changeRow_conduct project
        · exact fun e _ => ⟨⟨trivial, rfl⟩, Progress.stores_error _ e _⟩
      · exact fun e => ⟨⟨trivial, rfl⟩, Progress.stores_error _ e _⟩
    refine hbody.mono fun mutated p' h => ⟨h.1, ?_⟩
    exact attains_record_conduct trivial ⟨rfl, h.2⟩

theorem attains_raiseIssue_conduct {q : ManualIssueRequest} {component : Component}
    (project : ProjectKey) :
    (raiseIssue limits principal q component project).Attains conduct
      (fun _ p' => p'.phase = .idle) {} := by
  unfold raiseIssue
  refine attains_bind.2 (attains_authorize_conduct trivial ?_)
  rintro (e | _)
  · rfl
  refine attains_bind.2 (attains_findManualRule (consults_conduct {} trivial) (fun rule _ => ?_)
    fun e _ => rfl)
  dsimp only [Then]
  split_ifs
  · refine attains_bind.2 (attains_freshKey.2 ⟨.freshKey, ?_⟩)
    rintro key _ ⟨-, rfl⟩
    refine attains_bind.2 (attains_store.2 ⟨.insert rfl, ?_⟩)
    rintro (e | rows) _ ⟨hr, rfl⟩
    · rfl
    · obtain ⟨row, rfl⟩ : ∃ row, rows = [row] :=
        List.length_eq_one_iff.1 (by simpa using congrArg List.length hr)
      exact attains_indexRow_conduct rfl fun r => rfl
  · exact attains_bind.2 rfl

theorem attains_create_conduct {q : ManualIssueRequest} :
    (create limits principal q).Attains conduct (fun _ p' => p'.phase = .idle) {} := by
  have hraise : (inProject (findComponent q.componentKey) (raiseIssue limits principal q)).Attains
      conduct (fun _ p' => p'.phase = .idle) {} :=
    attains_inProject (attains_findComponent (consults_conduct {} trivial)
      (fun component project _ => attains_raiseIssue_conduct project) fun e _ => rfl)
  refine Script.attains_bind.2 (hraise.mono fun mutated p' h => ?_)
  exact attains_record_conduct (by rw [h]; trivial) h

theorem attains_reindex_conduct :
    (reindex key).Attains conduct (fun _ p' => p'.phase = .idle) {} := by
  refine Script.attains_bind.2 (attains_locked_conduct rfl ?_ ?_)
  · exact attains_record_conduct trivial rfl
  · refine attains_bind.2
      (attains_loadIssue_conduct (p := ⟨.holding key, [], []⟩) rfl (by simp) ?_ ?_)
    · rintro row rfl
      exact attains_indexRow_conduct rfl fun r =>
        ⟨⟨trivial, rfl⟩, attains_record_conduct trivial rfl⟩
    · exact fun e => ⟨⟨trivial, rfl⟩, attains_record_conduct trivial rfl⟩

theorem attains_syncKey_conduct {listed wrote : List IssueKey} (hkey : key ∈ listed) :
    (syncKey key).Attains conduct (fun _ p' => p'.Rests key ∧ p'.listed = listed)
      ⟨.holding key, listed, wrote⟩ := by
  refine attains_bind.2 (attains_store.2 ⟨.selectByKey, ?_⟩)
  rintro (e | _ | row) _ ⟨hr, rfl⟩
  · exact ⟨⟨trivial, rfl⟩, rfl⟩
  · rw [show Progress.after ⟨.holding key, listed, wrote⟩ (.store (.selectByKey key)) (.ok none) =
      ⟨.missing key, listed, wrote⟩ from if_pos hkey]
    refine attains_bind.2 (attains_index.2 ⟨.remove, ?_⟩)
    rintro (e | _) _ ⟨hr, rfl⟩
    · exact hr.elim
    · exact ⟨⟨trivial, rfl⟩, rfl⟩
  · refine attains_bind.2 (attains_index.2 ⟨.put rfl, ?_⟩)
    rintro (e | _) _ ⟨hr', rfl⟩
    · exact hr'.elim
    · exact ⟨⟨trivial, congrArg some hr⟩, rfl⟩

theorem attains_syncKeys_conduct {keys : List IssueKey} (hp : p.phase = .idle)
    (hkeys : ∀ key ∈ keys, key ∈ p.listed) :
    (syncKeys keys).Attains conduct (fun _ p' => p'.phase = .idle) p := by
  induction keys generalizing p with
  | nil => exact hp
  | cons key keys ih =>
    refine attains_bind.2 (attains_locked_conduct hp hp ?_)
    refine (attains_syncKey_conduct (hkeys key List.mem_cons_self)).mono ?_
    rintro (e | present) p' ⟨hrests, hlisted⟩
    · exact ⟨hrests, rfl⟩
    · refine ⟨hrests, attains_bind.2 ((ih rfl fun k hk => ?_).mono fun r p'' h => ?_)⟩
      · exact hlisted ▸ hkeys k (List.mem_cons_of_mem _ hk)
      · cases r <;> exact h

theorem attains_indexAll_conduct :
    indexAll.Attains conduct (fun _ p' => p'.phase = .idle) {} := by
  have hrebuild : rebuild.Attains conduct (fun _ p' => p'.phase = .idle) {} := by
    refine attains_bind.2 (attains_store.2 ⟨.selectAll, ?_⟩)
    rintro (e | rows) _ ⟨-, rfl⟩
    · rfl
    refine attains_bind.2 (attains_index.2 ⟨.keys, ?_⟩)
    rintro (e | indexed) _ ⟨hr, rfl⟩
    · exact hr.elim
    · refine attains_syncKeys_conduct rfl fun key hk => ?_
      change key ∈ indexed ++ (rows.map (·.key) ++ [])
      rw [List.append_nil, List.mem_append]
      exact (mem_keysToSync.1 hk).symm
  refine Script.attains_bind.2 (hrebuild.mono fun r p' h => ?_)
  exact attains_record_conduct (by rw [h]; trivial) h

end Service

end Triage
