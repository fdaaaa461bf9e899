import Triage.Proofs.Service.Exits

/-!
# Dialogues without memory

In a dialogue without memory, what may be called and how it may be answered never changes.  So all
there is to say of a script is what it ends in.  Where the rows at a key that come back are of one
kind, and rows of that kind may be handed over, an issue can be changed and reindexed; where this is
so at every key, the index can be rebuilt.
-/

namespace Triage

variable {α β : Type} {D : Dialogue Unit}

/-- Whether a script makes only calls that may be made, and ends in what `R` holds of. -/
def Script.Yields (D : Dialogue Unit) (R : α → Prop) (x : Script α) : Prop :=
  x.Attains D (fun a _ => R a) ()

/-- Whether an attempt makes only calls that may be made, and `R` holds of what it succeeds with. -/
def Attempt.Yields (D : Dialogue Unit) (R : α → Prop) (x : Attempt α) : Prop :=
  x.run.Yields D fun r => ∀ a, r = .ok a → R a

namespace Script

variable {R : α → Prop} {S : β → Prop}

theorem Yields.bind {x : Script α} {f : α → Script β} (hx : x.Yields D R)
    (hf : ∀ a, R a → (f a).Yields D S) : (x >>= f).Yields D S :=
  attains_bind.2 (hx.mono fun a _ ha => hf a ha)

theorem yields_pure {a : α} (h : R a) : (pure a : Script α).Yields D R := h

theorem yields_record {e : AuditEvent} (he : D.permits () (.record e)) {a : α} (h : R a) :
    (do single (.record e); return a : Script α).Yields D R :=
  ⟨he, fun _ _ _ => h⟩

end Script

namespace Attempt

variable {R : α → Prop} {S : β → Prop}

theorem Yields.bind {x : Attempt α} {f : α → Attempt β} (hx : x.Yields D R)
    (hf : ∀ a, R a → (f a).Yields D S) : (x >>= f).Yields D S := by
  refine attains_bind.2 (Script.Attains.mono (fun r _ hr => ?_) hx)
  cases r with
  | ok a => exact hf a (hr a rfl)
  | error e => exact fun a ha => nomatch ha

theorem Yields.mono {R' : α → Prop} {x : Attempt α} (h : x.Yields D R) (hR : ∀ a, R a → R' a) :
    x.Yields D R' :=
  Script.Attains.mono (fun _ _ hr a ha => hR a (hr a ha)) h

theorem yields_pure {a : α} (h : R a) : (pure a : Attempt α).Yields D R :=
  fun _ hb => Except.ok.inj hb ▸ h

theorem yields_error (e : ServiceError) : (throw e : Attempt α).Yields D R := fun _ ha => nomatch ha

theorem yields_store {c : StoreCall} (hc : D.permits () (.store c)) :
    (store c).Yields D fun a => D.answers () (.store c) (.ok a) () := by
  refine ⟨hc, fun r _ hr a ha => ?_⟩
  cases r with
  | ok b => exact Except.ok.inj ha ▸ hr
  | error e => cases ha

theorem yields_index {c : IndexCall} (hc : D.permits () (.index c)) :
    (index c).Yields D fun _ => True :=
  ⟨hc, fun _ _ _ _ _ => trivial⟩

theorem yields_catalog {c : CatalogCall} (hc : D.permits () (.catalog c)) :
    (catalog c).Yields D fun _ => True :=
  ⟨hc, fun _ _ _ _ _ => trivial⟩

theorem yields_authorize {p : Principal} {op : Operation} {project : ProjectKey}
    (h : D.permits () (.permits p op project)) : (authorize p op project).Yields D fun _ => True :=
  ⟨h, fun _ _ _ _ _ => trivial⟩

theorem yields_freshKey (h : D.permits () .freshKey) : freshKey.Yields D fun _ => True :=
  ⟨h, fun _ _ _ _ _ => trivial⟩

theorem yields_found (o : Option α) (e : ServiceError) :
    (found o e).Yields D fun a => o = some a := by
  cases o with
  | none => exact fun _ ha => nomatch ha
  | some a => exact fun _ hb => congrArg some (Except.ok.inj hb)

theorem yields_ofExcept (r : Except ServiceError α) : (ofExcept r).Yields D fun a => r = .ok a :=
  fun _ ha => ha

end Attempt

namespace Service

open Attempt

variable {key : IssueKey} {row : Issue} {R : α → Prop}

theorem yields_findProject (hD : ∀ c, D.permits () (.catalog c)) (uuid : ProjectUuid) :
    (findProject uuid).Yields D fun _ => True :=
  (yields_catalog (hD _)).bind fun _ _ => (yields_found _ _).bind fun _ _ => yields_pure trivial

theorem yields_locked {refused : α} {body : Script α} (henter : D.permits () (.enter key))
    (hleave : D.permits () (.leave key)) (hrefused : R refused) (hbody : body.Yields D R) :
    (locked key refused body).Yields D R := by
  refine ⟨henter, fun entered _ _ => ?_⟩
  cases entered with
  | false => exact hrefused
  | true => exact hbody.bind fun a ha => ⟨hleave, fun _ _ _ => ha⟩

theorem yields_inProject {find : Attempt (α × ProjectKey)}
    {rest : α → ProjectKey → Attempt IssueDoc} {R : α × ProjectKey → Prop} (hfind : find.Yields D R)
    (hrest : ∀ a, R a → (rest a.1 a.2).Yields D fun _ => True) :
    (inProject find rest).Yields D fun _ => True := by
  refine Script.Yields.bind hfind fun r hr => ?_
  cases r with
  | error e => exact Script.yields_pure trivial
  | ok a => exact Script.Yields.bind (hrest a (hr a rfl)) fun _ _ => Script.yields_pure trivial

/-! ## Changes of an issue -/

/-- Whether the rows at the key that come back are of one kind, which no change of an issue leads
out of, and rows of that kind may be stored and indexed. -/
structure Edits (D : Dialogue Unit) (key : IssueKey) (P : Issue → Prop) : Prop where
  catalog : ∀ c, D.permits () (.catalog c)
  gate : ∀ principal op project, D.permits () (.permits principal op project)
  enter : D.permits () (.enter key)
  leave : D.permits () (.leave key)
  select : D.permits () (.store (.selectByKey key))
  selected : ∀ {row}, D.answers () (.store (.selectByKey key)) (.ok (some row)) () → P row
  changed : ∀ {limits m i j}, Mutation.changed limits i m = .ok j → P i → P j
  update : ∀ {i user diffs}, P i → D.permits () (.store (.updateWithChange i user diffs))
  updated : ∀ {i user diffs row}, P i →
    D.answers () (.store (.updateWithChange i user diffs)) (.ok row) () → P row
  put : ∀ {row : Issue}, P row → D.permits () (.index (.put row.doc))
  get : ∀ {row : Issue}, P row → D.permits () (.index (.get row.key))

/-- Whether events may be recorded besides. -/
structure Handles (D : Dialogue Unit) (key : IssueKey) (P : Issue → Prop) : Prop
    extends Edits D key P where
  record : ∀ e, D.permits () (.record e)

namespace Edits

variable {P : Issue → Prop} (h : Edits D key P)

include h

theorem yields_loadIssue : (loadIssue key).Yields D P :=
  (yields_store h.select).bind fun o ho =>
    (yields_found o _).mono fun _ hrow => h.selected (hrow ▸ ho)

theorem yields_indexRow (hrow : P row) : (indexRow row).Yields D fun _ => True :=
  (yields_index (h.put hrow)).bind fun _ _ => (yields_index (h.get hrow)).bind fun _ _ =>
    (yields_found _ _).mono fun _ _ => trivial

theorem yields_changeRow {limits : ServiceLimits} {principal : Principal} {m : Mutation}
    (hrow : P row) (project : ProjectKey) :
    (changeRow limits principal m row project).Yields D fun _ => True := by
  have hconsults : D.Consults () fun _ _ => True :=
    ⟨h.catalog, fun _ _ _ _ => ⟨rfl, fun _ _ => trivial⟩⟩
  have hchange : (m.apply limits row).Yields D P := Mutation.attains_apply hconsults
    (fun j hj _ hk => Except.ok.inj hk ▸ h.changed hj hrow) fun e _ _ hk => nomatch hk
  refine (yields_authorize (h.gate _ _ _)).bind fun _ _ => hchange.bind fun changed hchanged => ?_
  exact (yields_store (h.update hchanged)).bind fun stored hstored =>
    h.yields_indexRow (h.updated hchanged hstored)

theorem yields_mutateLocked (limits : ServiceLimits) (principal : Principal) (m : Mutation) :
    (mutateLocked limits principal key m).Yields D fun _ => True := by
  refine yields_inProject (R := fun a => P a.1) ?_ fun a ha => h.yields_changeRow ha a.2
  exact h.yields_loadIssue.bind fun row hrow =>
    (yields_findProject h.catalog _).bind fun _ _ => yields_pure hrow

theorem yields_reindexLocked : (do indexRow (← loadIssue key) : Attempt IssueDoc).Yields D
    fun _ => True :=
  h.yields_loadIssue.bind fun _ hrow => h.yields_indexRow hrow

end Edits

namespace Handles

variable {P : Issue → Prop} (h : Handles D key P)

include h

theorem yields_mutate (limits : ServiceLimits) (principal : Principal) (m : Mutation) :
    (mutate limits principal key m).Yields D fun _ => True :=
  Script.Yields.bind
    (yields_locked h.enter h.leave trivial (h.yields_mutateLocked limits principal m))
    fun _ _ => Script.yields_record (h.record _) trivial

theorem yields_reindex : (reindex key).Yields D fun _ => True :=
  Script.Yields.bind (yields_locked h.enter h.leave trivial
    (Script.Attains.mono (fun _ _ _ => trivial) h.yields_reindexLocked))
    fun _ _ => Script.yields_record (h.record _) trivial

end Handles

/-! ## Rebuilding the index -/

/-- Whether at every key the rows that come back are of one kind and may be indexed, and keys may be
listed and removed. -/
structure Syncs (D : Dialogue Unit) (P : Issue → Prop) : Prop where
  edits : ∀ key, Edits D key P
  selectAll : D.permits () (.store .selectAll)
  keys : D.permits () (.index .keys)
  remove : ∀ key, D.permits () (.index (.remove key))

namespace Syncs

variable {P : Issue → Prop} (h : Syncs D P)

include h

theorem yields_syncKey (key : IssueKey) : (syncKey key).Yields D fun _ => True := by
  refine (yields_store (h.edits key).select).bind fun row? hrow => ?_
  cases row? with
  | none => exact (yields_index (h.remove key)).bind fun _ _ => yields_pure trivial
  | some row =>
    have hput := (h.edits key).put ((h.edits key).selected hrow)
    exact (yields_index hput).bind fun _ _ => yields_pure trivial

theorem yields_syncKeys (keys : List IssueKey) : (syncKeys keys).Yields D fun _ => True := by
  induction keys with
  | nil => exact yields_pure trivial
  | cons key keys ih =>
    refine Yields.bind (yields_locked (h.edits key).enter (h.edits key).leave
      (fun _ _ => trivial) (h.yields_syncKey key)) fun _ _ => ?_
    exact ih.bind fun _ _ => yields_pure trivial

theorem yields_rebuild : rebuild.Yields D fun _ => True :=
  (yields_store h.selectAll).bind fun _ _ =>
    (yields_index h.keys).bind fun _ _ => h.yields_syncKeys _

end Syncs

end Service

end Triage
