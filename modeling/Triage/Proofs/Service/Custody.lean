import Triage.Proofs.Service.Frame
import Triage.Proofs.Service.LockUse

/-!
# The row that a call works on

What a call knows of a row as it goes on.  A change of an issue is made of the row that was read
under the lock of its key, with the differences between the two; an index write shows a row that the
call has read there for this, has just written, or has just raised.  Every call of the service keeps
to this, whatever it is answered.
-/

namespace Triage

namespace Service

/-- The change that the call asks for: who asks, of which issue and for what. -/
def AnyCall.change? : AnyCall → Option (Principal × IssueKey × Mutation)
  | .writing (.issue (.change principal key m)) => some (principal, key, m)
  | _ => none

theorem AnyCall.change?_eq_some {x : AnyCall} {principal : Principal} {key : IssueKey}
    {m : Mutation} (h : x.change? = some (principal, key, m)) :
    x = .writing (.issue (.change principal key m)) := by
  unfold change? at h
  split at h
  · cases h
    rfl
  · cases h

/-- What a call knows: nothing; that it holds the lock of a key; the row that it has read, or
written, under that lock; or the row that it has raised, for which it needs no lock. -/
inductive Custody
  | idle
  | holding (key : IssueKey)
  | read (row : Issue)
  | written (row : Issue)
  | raised (row : Issue)

namespace Custody

/-- The key whose lock is held. -/
def lock? : Custody → Option IssueKey
  | holding key => some key
  | read row | written row => some row.key
  | _ => none

/-- Whether the document of the row may be put.  A call that is to change the row puts only what it
has written. -/
def Vouches (x : AnyCall) (row : Issue) : Custody → Prop
  | read row' | raised row' => row' = row ∧ x.change? = none
  | written row' => row' = row
  | _ => False

/-- Whether the call may be made. -/
def Permits (limits : ServiceLimits) (x : AnyCall) (s : Custody) : Call → Prop
  | .store (.updateWithChange i user diffs) => ∃ row principal m, s = .read row ∧
    x.change? = some (principal, row.key, m) ∧ m.changed limits row = .ok i ∧
    user = principal.login ∧ diffs = row.diffs i
  | .store (.insert issues) => s = .idle ∧ ∃ (q : ManualIssueRequest) (key : IssueKey)
    (component : Component) (rule : Rule) (reporter : Login),
    issues = [q.issue key component rule reporter]
  | .store (.update _) | .store (.insertChange _) => False
  | .store (.selectByKey key) => ∀ key' ∈ s.lock?, key' = key
  | .index (.put d) => ∃ row, s.Vouches x row ∧ d = row.doc
  | .enter _ => s = .idle
  | .leave key => s.lock? = some key
  | _ => True

/-- What is known after an answer. -/
def after (s : Custody) : (c : Call) → c.Answer → Custody
  | .enter key, true => .holding key
  | .leave _, _ => .idle
  | .store (.selectByKey _), .ok (some row) =>
    match s with
    | .holding _ => .read row
    | s => s
  | .store (.updateWithChange _ _ _), .ok row => .written row
  | .store (.insert _), .ok (row :: _) => .raised row
  | _, _ => s

end Custody

end Service

/-- Whether the row that is answered stands under the key that was asked for. -/
def Call.Addresses : (c : Call) → c.Answer → Prop
  | .store (.selectByKey key), .ok (some row) => row.key = key
  | .store (.updateWithChange i _ _), .ok row => row.key = i.key
  | _, _ => True

namespace Service

/-- The dialogue of a call that keeps to the row in its custody. -/
def custody (limits : ServiceLimits) (x : AnyCall) : Dialogue Custody where
  permits s c := s.Permits limits x c
  answers s c r s' := c.Addresses r ∧ s' = s.after c r

open Attempt

variable {limits : ServiceLimits} {x : AnyCall} {s : Custody} {key : IssueKey} {row : Issue}
  {principal : Principal} {m : Mutation}

/-! ## Steps of the calls -/

theorem consults_custody : (custody limits x).Consults s fun _ _ => True :=
  ⟨fun _ => trivial, fun _ _ _ h => ⟨h.2, fun _ _ => trivial⟩⟩

theorem attains_authorize_custody {op : Operation} {project : ProjectKey}
    {Q : Except ServiceError Unit → Custody → Prop} (hQ : ∀ r, Q r s) :
    (authorize principal op project).Attains (custody limits x) Q s :=
  attains_authorize.2 ⟨trivial, fun _ _ h => h.2 ▸ hQ _⟩

theorem attains_record_custody {α : Type} {e : AuditEvent} {a : α} {Q : α → Custody → Prop}
    (hQ : Q a s) :
    (do Script.single (.record e); return a : Script α).Attains (custody limits x) Q s :=
  Script.attains_bind.2 (Script.attains_single.2 ⟨trivial, fun _ _ h => h.2 ▸ hQ⟩)

/-- A call of the index tells nothing of the row. -/
theorem attains_index_custody {c : IndexCall} {Q : Except ServiceError c.Answer → Custody → Prop}
    (hc : s.Permits limits x (.index c)) (hQ : ∀ r, Q r s) :
    (index c).Attains (custody limits x) Q s := by
  refine attains_index.2 ⟨hc, ?_⟩
  rintro r _ ⟨-, rfl⟩
  exact hQ _

theorem attains_indexRow_custody {Q : Except ServiceError IssueDoc → Custody → Prop}
    (h : s.Vouches x row) (hQ : ∀ r, Q r s) : (indexRow row).Attains (custody limits x) Q s := by
  refine attains_bind.2 (attains_index_custody ⟨row, h, rfl⟩ ?_)
  rintro (e | _)
  · exact hQ _
  refine attains_bind.2 (attains_index_custody trivial ?_)
  rintro (e | d)
  · exact hQ _
  · exact attains_found_of (fun _ _ => hQ _) (hQ _)

theorem attains_loadIssue_custody {Q : Except ServiceError Issue → Custody → Prop}
    (hok : ∀ row : Issue, row.key = key → Q (.ok row) (.read row))
    (herr : ∀ e, Q (.error e) (.holding key)) :
    (loadIssue key).Attains (custody limits x) Q (.holding key) := by
  refine attains_bind.2 (attains_store.2 ⟨?_, ?_⟩)
  · rintro _ ⟨⟩
    rfl
  · rintro (e | _ | row) _ ⟨hr, rfl⟩
    · exact herr _
    · exact herr (.unknownIssue key)
    · exact hok row hr

/-- Work under the lock of a key, which ends with the lock still held. -/
theorem attains_locked_custody {α : Type} {refused : α} {body : Script α}
    {Q : α → Custody → Prop} (hrefused : Q refused .idle)
    (hbody : body.Attains (custody limits x) (fun a s' => s'.lock? = some key ∧ Q a .idle)
      (.holding key)) :
    (locked key refused body).Attains (custody limits x) Q .idle := by
  refine Script.attains_bind.2 (Script.attains_single.2 ⟨rfl, ?_⟩)
  rintro (_ | _) _ ⟨-, rfl⟩
  · exact hrefused
  · refine Script.attains_bind.2 (hbody.mono fun a s' h => ?_)
    refine Script.attains_bind.2 (Script.attains_single.2 ⟨h.1, ?_⟩)
    rintro _ _ ⟨-, rfl⟩
    exact h.2

/-! ## Calls that write -/

/-- Whether nothing more than the lock of the key is held. -/
abbrev Custody.Locks (key : IssueKey) (s : Custody) : Prop := s.lock? = some key

theorem attains_changeRow_custody (hx : x.change? = some (principal, row.key, m))
    (project : ProjectKey) :
    (changeRow limits principal m row project).Attains (custody limits x)
      (fun _ s' => s'.Locks row.key) (.read row) := by
  unfold changeRow
  refine attains_bind.2 (attains_authorize_custody ?_)
  rintro (e | _)
  · rfl
  refine attains_bind.2 (Mutation.attains_apply consults_custody (fun changed hchanged => ?_)
    fun e _ => rfl)
  refine attains_bind.2 (attains_store.2
    ⟨⟨row, principal, m, rfl, hx, hchanged, rfl, rfl⟩, ?_⟩)
  rintro (e | stored) _ ⟨hr, rfl⟩
  · rfl
  · have hkey : stored.key = row.key := Eq.trans hr (Mutation.key_of_changed_eq_ok hchanged)
    exact attains_indexRow_custody (s := .written stored) rfl fun _ => congrArg some hkey

theorem attains_mutate_custody (hx : x.change? = some (principal, key, m)) :
    (mutate limits principal key m).Attains (custody limits x) (fun _ _ => True) .idle := by
  refine Script.attains_bind.2 (attains_locked_custody (attains_record_custody trivial) ?_)
  refine (attains_inProject (D := custody limits x) (Q := fun _ s' => s'.Locks key)
    (attains_bind.2 (attains_loadIssue_custody ?_ fun e => rfl))).mono
    fun mutated s' h => ⟨h, attains_record_custody trivial⟩
  rintro row rfl
  exact attains_bind.2 (attains_findProject consults_custody
    (fun project => attains_changeRow_custody hx project) fun e _ => rfl)

theorem attains_create_custody (hx : x.change? = none) {q : ManualIssueRequest} :
    (create limits principal q).Attains (custody limits x) (fun _ _ => True) .idle := by
  have hraise : (inProject (findComponent q.componentKey) (raiseIssue limits principal q)).Attains
      (custody limits x) (fun _ _ => True) .idle := by
    refine attains_inProject (Q := fun _ _ => True) (attains_findComponent consults_custody
      (fun component project _ => ?_) fun e _ => trivial)
    refine attains_bind.2 (attains_authorize_custody ?_)
    rintro (e | _)
    · trivial
    refine attains_bind.2 (attains_findManualRule consults_custody (fun rule _ => ?_)
      fun e _ => trivial)
    dsimp only [Then]
    split_ifs
    · refine attains_bind.2 (attains_freshKey.2 ⟨trivial, ?_⟩)
      rintro key _ ⟨-, rfl⟩
      refine attains_bind.2 (attains_store.2 ⟨⟨rfl, q, key, component, rule, _, rfl⟩, ?_⟩)
      rintro (e | _ | ⟨stored, rows⟩) _ ⟨-, rfl⟩
      · trivial
      · exact attains_bind.2 trivial
      · exact attains_indexRow_custody (s := .raised stored) ⟨rfl, hx⟩ fun _ => trivial
    · exact attains_bind.2 trivial
  exact Script.attains_bind.2 (hraise.mono fun _ _ _ => attains_record_custody trivial)

theorem attains_reindex_custody (hx : x.change? = none) :
    (reindex key).Attains (custody limits x) (fun _ _ => True) .idle := by
  refine Script.attains_bind.2 (attains_locked_custody (attains_record_custody trivial) ?_)
  refine attains_bind.2
    (attains_loadIssue_custody ?_ fun e => ⟨rfl, attains_record_custody trivial⟩)
  rintro row rfl
  exact attains_indexRow_custody ⟨rfl, hx⟩ fun _ => ⟨rfl, attains_record_custody trivial⟩

theorem attains_syncKey_custody (hx : x.change? = none) :
    (syncKey key).Attains (custody limits x) (fun _ s' => s'.Locks key) (.holding key) := by
  refine attains_bind.2 (attains_store.2 ⟨?_, ?_⟩)
  · rintro _ ⟨⟩
    rfl
  rintro (e | _ | row) _ ⟨hr, rfl⟩
  · rfl
  · refine attains_bind.2 (attains_index_custody trivial ?_)
    rintro (e | _) <;> rfl
  · refine attains_bind.2 (attains_index_custody ⟨row, ⟨rfl, hx⟩, rfl⟩ ?_)
    rintro (e | _) <;> exact congrArg some hr

theorem attains_syncKeys_custody (hx : x.change? = none) (keys : List IssueKey) :
    (syncKeys keys).Attains (custody limits x) (fun _ s' => s' = .idle) .idle := by
  induction keys with
  | nil => rfl
  | cons key keys ih =>
    refine attains_bind.2 (attains_locked_custody rfl ?_)
    refine (attains_syncKey_custody hx).mono ?_
    rintro (e | present) s' h
    · exact ⟨h, rfl⟩
    · refine ⟨h, attains_bind.2 (ih.mono fun r s'' h' => ?_)⟩
      cases r <;> exact h'

theorem attains_indexAll_custody (hx : x.change? = none) :
    indexAll.Attains (custody limits x) (fun _ _ => True) .idle := by
  have hrebuild : rebuild.Attains (custody limits x) (fun _ _ => True) .idle := by
    refine attains_bind.2 (attains_store.2 ⟨trivial, ?_⟩)
    rintro (e | rows) _ ⟨-, rfl⟩
    · trivial
    refine attains_bind.2 (attains_index_custody trivial ?_)
    rintro (e | indexed)
    · trivial
    · exact (attains_syncKeys_custody hx _).mono fun _ _ _ => trivial
  exact Script.attains_bind.2 (hrebuild.mono fun _ _ _ => attains_record_custody trivial)

/-! ## Calls that read -/

/-- Whether the attempt comes to know nothing of a row. -/
def Idles (limits : ServiceLimits) (x : AnyCall) {α : Type} (a : Attempt α) : Prop :=
  a.Attains (custody limits x) (fun _ s => s = .idle) .idle

section

variable {α β : Type}

theorem Idles.bind {a : Attempt α} {f : α → Attempt β} (ha : Idles limits x a)
    (hf : ∀ b, Idles limits x (f b)) : Idles limits x (a >>= f) := by
  refine attains_bind.2 (ha.mono ?_)
  rintro (e | b) _ rfl
  · rfl
  · exact hf b

theorem idles_pure (a : α) : Idles limits x (pure a) := rfl

theorem idles_found (o : Option α) (e : ServiceError) : Idles limits x (found o e) :=
  attains_found_of (fun _ _ => rfl) rfl

theorem idles_index {c : IndexCall} (hc : Custody.idle.Permits limits x (.index c)) :
    Idles limits x (index c) :=
  attains_index_custody hc fun _ => rfl

theorem idles_catalog (c : CatalogCall) : Idles limits x (catalog c) :=
  attains_consult consults_custody (fun _ _ => rfl) fun _ => rfl

theorem idles_getByKey (key : IssueKey) : Idles limits x (getByKey key) :=
  (idles_index (c := .get key) trivial).bind fun _ => idles_found _ _

theorem idles_componentQuery (key : ComponentKey) (createdAfter : Option Timestamp) :
    Idles limits x (componentQuery key createdAfter) := by
  refine (idles_catalog _).bind fun _ => (idles_found _ _).bind fun component => ?_
  split_ifs <;> exact idles_pure _

theorem idles_nameRules (values : List FacetValue) : Idles limits x (nameRules values) := by
  induction values with
  | nil => exact idles_pure _
  | cons v values ih =>
    obtain ⟨_ | text, count⟩ := v
    · exact ih
    · exact (idles_catalog _).bind fun _ => ih.bind fun _ => idles_pure _

/-- To read a row without its lock is to know nothing of it. -/
theorem idles_changelog (key : IssueKey) : Idles limits x (changelog key) := by
  refine attains_bind.2 (attains_bind.2 (attains_store.2 ⟨nofun, ?_⟩))
  rintro (e | _ | row) _ ⟨-, rfl⟩
  · rfl
  · rfl
  · refine attains_store.2 ⟨trivial, ?_⟩
    rintro (e | changes) _ ⟨-, rfl⟩ <;> rfl

end

/-- Every call of the service keeps to the row in its custody. -/
theorem AnyCall.attains_script_custody (limits : ServiceLimits) (x : AnyCall) :
    (x.script limits).Attains (custody limits x) (fun _ _ => True) .idle := by
  have whole {α : Type} {a : Attempt α} (h : Idles limits x a) :
      (do let _ ← a.run : Script Unit).Attains (custody limits x) (fun _ _ => True) .idle :=
    Script.attains_bind.2 (Script.Attains.mono (fun _ _ _ => trivial) h)
  have writing {α : Type} {a : Script α}
      (h : a.Attains (custody limits x) (fun _ _ => True) .idle) {f : α → Reply} :
      (do let _ ← (do return f (← a) : Script Reply) : Script Unit).Attains (custody limits x)
        (fun _ _ => True) .idle :=
    Script.attains_bind.2 (Script.attains_bind.2 (h.mono fun _ _ _ => trivial))
  cases x with
  | writing c =>
    rcases c with (⟨principal, key, m⟩ | ⟨principal, q⟩ | key) | _
    · exact writing (attains_mutate_custody rfl)
    · exact writing (attains_create_custody rfl)
    · exact writing (attains_reindex_custody rfl)
    · exact writing (attains_indexAll_custody rfl)
  | document key => exact whole (idles_getByKey key)
  | search query context =>
    exact whole (Idles.bind (a := .ofExcept (context.facets.mapM facetNamed)) rfl fun _ =>
      idles_index trivial)
  | transitions key => exact whole ((idles_getByKey key).bind fun _ => idles_pure _)
  | tags substring size =>
    refine whole ?_
    unfold listTags
    split_ifs
    · exact idles_index trivial
    · exact idles_pure _
  | rules key createdAfter =>
    exact whole ((idles_componentQuery _ _).bind fun query =>
      (idles_index (c := .facet query .rules) trivial).bind fun _ => idles_nameRules _)
  | severities key createdAfter =>
    exact whole ((idles_componentQuery _ _).bind fun query =>
      idles_index (c := .facet query .severities) trivial)
  | assignees query => exact whole (idles_index (c := .facet query .assignees) trivial)
  | changelog key => exact whole (idles_changelog key)

end Service

end Triage
