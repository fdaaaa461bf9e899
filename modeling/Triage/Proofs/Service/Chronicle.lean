import Triage.Proofs.Issue.Replay
import Triage.Proofs.Service.Divergence
import Triage.Proofs.Store.Legible
import Triage.Proofs.Tags
import Triage.Service.Reading

/-!
# The changelog tells the changes

What a run has done to an issue can be told from outside: of each change that a caller asks for, by
the row before it and the row after it.  The changelog of the issue is the list of these entries.
So it can be replayed from the row that came into the store to the row that lies there now.
-/

namespace Triage

/-! ## Tags -/

namespace Service

open World

theorem Mutation.allValid_of_changed_eq_ok {limits : ServiceLimits} {m : Mutation} {i j : Issue}
    (hi : i.tags.AllValid) (h : m.changed limits i = .ok j) : j.tags.AllValid := by
  rcases tags_of_changed h with hsame | hnormal
  · rwa [hsame]
  · exact hnormal.valid

end Service

/-! ## Calls that spare the store -/

/-- Whether the call writes nothing to the store. -/
def Call.Spares : Call → Prop
  | .store (.selectByKey _) | .store .selectAll | .store (.selectChanges _) => True
  | .store _ => False
  | _ => True

theorem World.store_perform_of_spares {c : Call} (hc : c.Spares) (w : World) :
    (w.perform c).2.store = w.store := by
  cases c with
  | store c =>
    cases c with
    | selectByKey | selectAll | selectChanges =>
      change (w.store.perform w.clock _).2 = w.store
      cases w.store <;> rfl
    | insert | update | updateWithChange | insertChange => exact hc.elim
  | index | catalog | permits | freshKey | enter | leave | record => rfl

/-- Whether the script writes nothing to the store. -/
def Script.Spares {α : Type} : Script α → Prop
  | .done _ => True
  | .ask c next => c.Spares ∧ ∀ r, (next r).Spares

/-- Whether the attempt writes nothing to the store. -/
def Attempt.Spares {α : Type} (x : Attempt α) : Prop := x.run.Spares

namespace Script

variable {α β : Type}

theorem Spares.bind {x : Script α} {f : α → Script β} (hx : x.Spares) (hf : ∀ a, (f a).Spares) :
    (x >>= f).Spares := by
  induction x with
  | done a => exact hf a
  | ask c next ih => exact ⟨hx.1, fun r => ih r (hx.2 r)⟩

/-- The store stays, however the script is disturbed. -/
theorem Spares.store_runFrom {x : Script α} (hx : x.Spares) (w : World) (held : List IssueKey)
    (fs : List (Option Failure)) : (x.runFrom w held fs).2.store = w.store := by
  induction x generalizing w held fs with
  | done a => rfl
  | ask c next ih =>
    have hstore : (w.respond (fs.head?.getD none) c).2.store = w.store := by
      rcases w.respond_snd (fs.head?.getD none) c with hw | hw <;> rw [hw]
      exact World.store_perform_of_spares hx.1 w
    unfold runFrom
    split
    case h_1 heq =>
      rw [heq] at hstore
      exact (ih _ (hx.2 _) _ _ _).trans hstore
    case h_2 heq =>
      rw [heq] at hstore
      exact hstore

end Script

theorem Attempt.Spares.bind {α β : Type} {x : Attempt α} {f : α → Attempt β} (hx : x.Spares)
    (hf : ∀ a, (f a).Spares) : (x >>= f).Spares := by
  refine Script.Spares.bind hx fun r => ?_
  cases r with
  | ok a => exact hf a
  | error e => trivial

namespace Service

theorem spares_locked {α : Type} {key : IssueKey} {refused : α} {body : Script α}
    (hbody : body.Spares) : (locked key refused body).Spares := by
  refine ⟨trivial, fun entered => ?_⟩
  cases entered with
  | false => trivial
  | true => exact hbody.bind fun a => ⟨trivial, fun _ => trivial⟩

theorem spares_syncKey (key : IssueKey) : (syncKey key).Spares := by
  refine Attempt.Spares.bind ⟨trivial, fun _ => trivial⟩ fun row? => ?_
  cases row? <;> exact Attempt.Spares.bind ⟨trivial, fun _ => trivial⟩ fun _ => trivial

theorem spares_syncKeys (keys : List IssueKey) : (syncKeys keys).Spares := by
  induction keys with
  | nil => trivial
  | cons key keys ih =>
    exact Attempt.Spares.bind (spares_locked (spares_syncKey key)) fun _ => ih.bind fun _ => trivial

theorem spares_indexAll : indexAll.Spares := by
  refine Script.Spares.bind (Attempt.Spares.bind ⟨trivial, fun _ => trivial⟩ fun rows => ?_)
    fun _ => ⟨trivial, fun _ => trivial⟩
  exact Attempt.Spares.bind ⟨trivial, fun _ => trivial⟩ fun keys => spares_syncKeys _

/-! ## Entries of a run -/

/-- The row that is read under the key, if there is one. -/
def rowAt (w : World) (key : IssueKey) : Option Issue :=
  (w.read (.selectByKey key)).toOption.join

/-- The entry of a change that a user has made, if it has changed a tracked field. -/
def entryBetween (key : IssueKey) (user : Login) : Option Issue → Option Issue → Option IssueChange
  | some before, some after =>
    if before.changes after = [] then none
    else some ⟨key, user, after.updatedAt, before.changes after⟩
  | _, _ => none

/-- The entry that an event of a run calls for in the changelog of a key: one for a change of the
issue after which its row differs in a tracked field from before. -/
def entryOf (key : IssueKey) (w w' : World) : Event → Option IssueChange
  | .call (.change principal key' _) _ =>
    if key' = key then entryBetween key principal.login (rowAt w key) (rowAt w' key) else none
  | _ => none

/-- The entries that the events of a run call for in the changelog of a key, the oldest first. -/
def chronicle (limits : ServiceLimits) (key : IssueKey) (l : Ledger) : List Event → List IssueChange
  | [] => []
  | e :: es => (entryOf key l.world (l.apply limits e).world e).toList ++
      chronicle limits key (l.apply limits e) es

variable {limits : ServiceLimits} {key : IssueKey} {w w' : World} {l : Ledger} {e : Event}
  {es : List Event} {first last : Issue} {log : List IssueChange}

theorem chronicle_concat (limits : ServiceLimits) (key : IssueKey) (l : Ledger) (es : List Event)
    (e : Event) : chronicle limits key l (es ++ [e]) = chronicle limits key l es ++
      (entryOf key (l.run limits es).world ((l.run limits es).apply limits e).world e).toList := by
  induction es generalizing l with
  | nil => simp [chronicle, Ledger.run]
  | cons e' es ih =>
    rw [List.cons_append, chronicle, ih, chronicle, List.append_assoc]
    rfl

/-! ## What an event does under a key -/

/-- What an event of a run may do under a key: nothing, bring a row in, or change the row. -/
inductive Effect (limits : ServiceLimits) (key : IssueKey) (w w' : World) (e : Event) : Prop
  | stays (hcell : w'.store.cell? key = w.store.cell? key)
    (hentries : w'.store.entries key = w.store.entries key) (hentry : entryOf key w w' e = none)
  | enters {row : Issue} (hfresh : ¬w.store.HasRow key) (hrow : w'.store.Holds row)
    (hkey : row.key = key) (hvalid : row.tags.AllValid)
    (hentries : w'.store.entries key = w.store.entries key)
    (hingest : ∀ issues, e = .ingest issues → ∃ i ∈ issues, i.key = key ∧ row.Tracks i)
  | changes {principal : Principal} {m : Mutation} {fs : List (Option Refusal)} {old row : Issue}
    (he : e = .call (.change principal key m) fs)
    (hstored : StoredChange limits principal key m w old row w'.store)

theorem entryBetween_self (key : IssueKey) (user : Login) (row : Option Issue) :
    entryBetween key user row row = none := by
  cases row with
  | none => rfl
  | some row => exact if_pos (Issue.changes_eq_nil_iff.2 (Issue.Tracks.refl row))

theorem entryBetween_none (key : IssueKey) (user : Login) (row : Option Issue) :
    entryBetween key user none row = none := by
  cases row <;> rfl

/-- The entry of an event after which the store and the clock are as before. -/
theorem entryOf_of_store_eq (hstore : w'.store = w.store) (hclock : w'.clock = w.clock) :
    entryOf key w w' e = none := by
  have hrow : rowAt w' key = rowAt w key := by
    rw [rowAt, rowAt, World.read, World.read, hstore, hclock]
  unfold entryOf
  split
  · rw [hrow, entryBetween_self, ite_self]
  · rfl

theorem effect_of_store_eq (hstore : w'.store = w.store) (hclock : w'.clock = w.clock) :
    Effect limits key w w' e :=
  .stays (by rw [hstore]) (by rw [hstore]) (entryOf_of_store_eq hstore hclock)

/-- A batch brings rows in and touches no other key. -/
theorem effect_of_inserts {issues rows : List Issue}
    (h : w.store.Inserts w'.store w.clock issues rows) (hvalid : ∀ i ∈ issues, i.tags.AllValid)
    (hentry : entryOf key w w' e = none)
    (hissues : ∀ batch, e = .ingest batch → batch = issues) : Effect limits key w w' e := by
  have hentries : w'.store.entries key = w.store.entries key := h.logs.others key nofun
  by_cases hkey : ∃ i ∈ issues, i.key = key
  · obtain ⟨i, hi, rfl⟩ := hkey
    have hrow : i.inserted w.clock ∈ rows := h.rows_eq ▸ List.mem_map_of_mem hi
    refine .enters (h.fresh i hi) (h.writes.holds _ hrow) rfl (hvalid i hi) hentries ?_
    rintro batch hbatch
    exact ⟨i, hissues batch hbatch ▸ hi, rfl, fun f => by cases f <;> rfl⟩
  · refine .stays (h.writes.others key ?_) hentries hentry
    rw [h.rows_eq, List.forall_mem_map]
    exact fun i hi hik => hkey ⟨i, hi, hik⟩

/-- The change of another issue. -/
theorem effect_of_other {principal : Principal} {key' : IssueKey} {m : Mutation} {old row : Issue}
    {fs : List (Option Refusal)} (hne : key' ≠ key)
    (h : StoredChange limits principal key' m w old row w'.store) :
    Effect limits key w w' (.call (.change principal key' m) fs) := by
  refine .stays (h.writes.others key (by simpa [h.key_eq] using hne)) (h.logs.others key ?_) ?_
  · intro c hc
    split_ifs at hc <;> cases hc
    exact hne
  · exact if_neg hne

theorem effect_call {c : IssueCall} {fs : List (Option Refusal)} {r : Except ServiceError IssueDoc}
    (hw : w.store.Keyed) (h : c.Ends limits w r w') (key : IssueKey) :
    Effect limits key w w' (.call c fs) := by
  have hexit : w'.store = w.store ∨ ∃ row, c.Writes limits w row w'.store := by
    have hexit := h.exit
    generalize w'.store = s', w'.index = x' at hexit
    cases hexit with
    | refused => exact .inl rfl
    | diverged _ hrow | applied hrow => exact .inr ⟨_, hrow⟩
  rcases hexit with hstore | ⟨row, hrow⟩
  · exact effect_of_store_eq hstore h.clock
  · cases c with
    | change principal key' m =>
      obtain ⟨old, hstored⟩ := Changes.stored hw hrow
      by_cases hkey : key' = key
      · subst hkey
        exact .changes rfl hstored
      · exact effect_of_other hkey hstored
    | create principal q =>
      obtain ⟨component, rule, -, -, hinserts⟩ := hrow
      refine effect_of_inserts hinserts (fun i hi => ?_) rfl nofun
      rw [List.mem_singleton.1 hi]
      exact fun t ht => by cases ht
    | reindex key' => exact effect_of_store_eq hrow.1 h.clock

theorem effect_apply (limits : ServiceLimits) (hw : l.world.store.Keyed) (key : IssueKey)
    (htags : ∀ issues, e = .ingest issues → ∀ i ∈ issues, i.tags.AllValid) :
    Effect limits key l.world (l.apply limits e).world e := by
  cases e with
  | call c fs =>
    obtain ⟨r, w', hrun, hends⟩ := (c.attains_script limits l.world).runFrom [] fs
    have hrun : (c.script limits).run l.world (refusals fs) = (.returned r, w') := hrun
    simp only [Ledger.apply, hrun]
    exact effect_call hw hends key
  | indexAll fs =>
    have hworld : (l.apply limits (.indexAll fs)).world =
        (indexAll.run l.world (refusals fs)).2 := by
      simp only [Ledger.apply]
      split <;> simp_all
    have hstore := spares_indexAll.store_runFrom l.world [] (refusals fs)
    exact .stays (by rw [hworld]; exact congrArg (·.cell? key) hstore)
      (by rw [hworld]; exact congrArg (·.entries key) hstore) rfl
  | ingest issues =>
    simp only [Ledger.apply]
    rcases hr : (l.world.store.perform l.world.clock (.insert issues)).1 with error | rows
    · exact effect_of_store_eq (Store.perform_of_error hr) rfl
    · exact effect_of_inserts (Store.inserts_of_insert (Prod.ext hr rfl)) (htags issues rfl) rfl
        fun batch hbatch => by cases hbatch; rfl
  | turn gate catalog clock => exact .stays rfl rfl rfl

/-! ## What has become of a row -/

/-- Whether the row under a key has come, by the entries of its changelog, from `first` to
`last`. -/
structure Chronicled (s : Store) (key : IssueKey) (first : Issue) (log : List IssueChange)
    (last : Issue) : Prop where
  holds : s.Holds last
  key_eq : last.key = key
  valid : last.tags.AllValid
  leads : first.Leads log last
  filed : List.Forall₂ Entry.Holds (s.entries key) log

theorem tracks_effort (i : Issue) (effort : Option Binary64) :
    Issue.Tracks { i with effortToFix := effort } i :=
  fun f => by cases f <;> rfl

/-- A row that is held is read, up to the effort. -/
theorem rowAt_of_holds {i : Issue} (h : w.store.Holds i) :
    ∃ effort, rowAt w i.key = some { i with effortToFix := effort } := by
  obtain ⟨effort, hread⟩ := h.exists_selectByKey w.clock
  exact ⟨effort, by rw [rowAt, World.read, hread]; rfl⟩

theorem Chronicled.stays (h : Chronicled w.store key first log last)
    (hcell : w'.store.cell? key = w.store.cell? key)
    (hentries : w'.store.entries key = w.store.entries key) :
    Chronicled w'.store key first log last where
  holds := (Store.holds_iff_of_cell?_eq (h.key_eq ▸ hcell)).2 h.holds
  key_eq := h.key_eq
  valid := h.valid
  leads := h.leads
  filed := hentries ▸ h.filed

/-- A change of the issue leads on from the row before it. -/
theorem Chronicled.changes {principal : Principal} {m : Mutation} {old row : Issue}
    (h : Chronicled w.store key first log last)
    (hstored : StoredChange limits principal key m w old row w'.store) :
    Chronicled w'.store key first
      (log ++ (entryBetween key principal.login (rowAt w key) (rowAt w' key)).toList) row := by
  obtain ⟨changed, hchanged, hrow⟩ := hstored.row_eq
  have hbefore : rowAt w key = some old := by rw [rowAt, hstored.read]; rfl
  have hold : old.Tracks last := by
    obtain ⟨effort, hread⟩ := rowAt_of_holds h.holds
    rw [h.key_eq, hbefore] at hread
    rw [Option.some.inj hread]
    exact tracks_effort last effort
  have hvalid : old.tags.AllValid := (show last.tags = old.tags from (hold .tags).symm) ▸ h.valid
  have hchangedValid := Mutation.allValid_of_changed_eq_ok hvalid hchanged
  have hrowValid : row.tags.AllValid := by
    rw [hrow]
    exact hchangedValid
  have hholds : w'.store.Holds row := hstored.writes.holds row (List.mem_singleton_self row)
  -- what is read of the new row differs from it in the effort at most
  obtain ⟨effort, hafter⟩ := rowAt_of_holds hholds
  have hchanges : old.changes { row with effortToFix := effort } = old.changes row :=
    (tracks_effort row effort).changes_eq
  have hlogs := hstored.logs
  rw [Issue.diffs_eq_changes hvalid hrowValid] at hlogs
  rw [hbefore, ← hstored.key_eq, hafter, entryBetween, hchanges, hstored.key_eq]
  by_cases hnil : old.changes row = []
  · rw [if_pos hnil, Option.toList_none, List.append_nil]
    rw [hnil, List.isEmpty_nil, if_pos rfl] at hlogs
    refine ⟨hholds, hstored.key_eq, hrowValid, h.leads.of_tracks ?_, ?_⟩
    · exact hold.symm.trans (Issue.changes_eq_nil_iff.1 hnil)
    · rw [hlogs.others key nofun]
      exact h.filed
  · rw [if_neg hnil, Option.toList_some]
    rw [List.isEmpty_eq_false_iff.2 hnil, if_neg Bool.false_ne_true] at hlogs
    obtain ⟨entry, hentry, hentries⟩ := hlogs.filed _ rfl
    refine ⟨hholds, hstored.key_eq, hrowValid,
      (h.leads.of_tracks hold.symm).append rfl hrowValid, ?_⟩
    rw [hentries]
    exact List.rel_append h.filed (.cons hentry .nil)

/-- Whether the row under the key has come in as `first` in the run: there was none before an event,
and after it `first` is read; from a batch it has the tracked values of the issue there. -/
def Arrived (limits : ServiceLimits) (w : World) (es : List Event) (key : IssueKey)
    (first : Issue) : Prop :=
  ∃ es₁ e es₂, es = es₁ ++ e :: es₂ ∧ ¬(after limits w es₁).store.HasRow key ∧
    rowAt (after limits w (es₁ ++ [e])) key = some first ∧
    ∀ issues, e = .ingest issues → ∃ i ∈ issues, i.key = key ∧ first.Tracks i

theorem Arrived.concat (h : Arrived limits w es key first) (e : Event) :
    Arrived limits w (es ++ [e]) key first := by
  obtain ⟨es₁, e₁, es₂, rfl, hbefore, hafter, hingest⟩ := h
  exact ⟨es₁, e₁, es₂ ++ [e], by simp, hbefore, hafter, hingest⟩

/-- Whether a batch that is put straight into the store holds only tags that can be stored. -/
def WellTagged (es : List Event) : Prop :=
  ∀ issues, .ingest issues ∈ es → ∀ i ∈ issues, i.tags.AllValid

theorem WellTagged.of_concat (h : WellTagged (es ++ [e])) : WellTagged es :=
  fun issues hissues => h issues (List.mem_append_left _ hissues)

theorem after_keeps {P : World → Prop}
    (hstep : ∀ l e, P l.world → P (Ledger.apply limits l e).world) (hw : P w) (es : List Event) : P (after limits w es) := by
  induction es using List.reverseRecOn with
  | nil => exact hw
  | append_singleton es e ih =>
    rw [after_concat]
    exact hstep _ e ih

theorem keyed_after (hw : w.store.Fresh) (es : List Event) : (after limits w es).store.Keyed := by
  have hstart : w.Reachable := .start fun key => Store.not_hasRow_iff.2 (hw.cell?_eq key)
  refine (after_keeps (P := World.Reachable) (fun l e h => ?_) hstart es).keyed
  exact l.apply_keeps (fun _ f c h => h.respond f c) (fun _ held h => h.abandon held)
    (fun _ _ _ _ h => h.turn rfl) h limits e

theorem hasChanges_respond (h : w.store.HasChanges) (f : Option Failure) (c : Call) :
    (w.respond f c).2.store.HasChanges := by
  rcases w.respond_snd f c with hw | hw <;> rw [hw]
  · exact h
  · cases c with
    | store c => exact h.perform w.clock c
    | index | catalog | permits | freshKey | enter | leave | record => exact h

theorem hasChanges_after (hw : w.store.Fresh) (es : List Event) :
    (after limits w es).store.HasChanges := by
  refine after_keeps (P := fun w => w.store.HasChanges) (fun l e h => ?_) hw.hasChanges es
  exact l.apply_keeps (P := fun w => w.store.HasChanges) (fun _ f c h => hasChanges_respond h f c)
    (fun _ _ h => h) (fun _ _ _ _ h => h) h limits e

theorem arrived_last {row : Issue} (hfresh : ¬(after limits w es).store.HasRow key)
    (hrow : (after limits w (es ++ [e])).store.Holds row) (hkey : row.key = key)
    (hingest : ∀ issues, e = .ingest issues → ∃ i ∈ issues, i.key = key ∧ row.Tracks i) :
    ∃ first, Arrived limits w (es ++ [e]) key first ∧ first.Tracks row := by
  obtain ⟨effort, hread⟩ := rowAt_of_holds hrow
  have htracks := tracks_effort row effort
  refine ⟨_, ⟨es, e, [], rfl, hfresh, hkey ▸ hread, fun issues he => ?_⟩, htracks⟩
  obtain ⟨i, hi, hik, hrowTracks⟩ := hingest issues he
  exact ⟨i, hi, hik, htracks.trans hrowTracks⟩

theorem rowAt_of_not_hasRow (h : ¬w.store.HasRow key) : rowAt w key = none := by
  rcases hread : w.read (.selectByKey key) with error | row?
  · rw [rowAt, hread]
    rfl
  · rcases Store.selectByKey_eq_ok hread with ⟨rfl, -⟩ | ⟨c, i, -, hc, -⟩
    · rw [rowAt, hread]
      rfl
    · exact absurd (by rw [Store.HasRow, hc]; rfl) h

theorem entryOf_of_not_hasRow (h : ¬w.store.HasRow key) : entryOf key w w' e = none := by
  unfold entryOf
  split
  · rw [rowAt_of_not_hasRow h, entryBetween_none, ite_self]
  · rfl

/-- What a run leaves under a key: nothing, or a row that has become what its changelog tells. -/
theorem chronicled_after (limits : ServiceLimits) (hw : w.store.Fresh) (htags : WellTagged es)
    (key : IssueKey) :
    (¬(after limits w es).store.HasRow key ∧ (after limits w es).store.entries key = [] ∧
      chronicle limits key ⟨w, []⟩ es = []) ∨
    ∃ first last, Arrived limits w es key first ∧
      Chronicled (after limits w es).store key first (chronicle limits key ⟨w, []⟩ es) last := by
  induction es using List.reverseRecOn with
  | nil => exact .inl ⟨Store.not_hasRow_iff.2 (hw.cell?_eq key), hw.entries_eq key, rfl⟩
  | append_singleton es e ih =>
    have heffect : Effect limits key (after limits w es) (after limits w (es ++ [e])) e := by
      rw [after_concat]
      exact effect_apply limits (keyed_after hw es) key fun issues he => htags issues (by simp [he])
    have hlog : chronicle limits key ⟨w, []⟩ (es ++ [e]) = chronicle limits key ⟨w, []⟩ es ++
        (entryOf key (after limits w es) (after limits w (es ++ [e])) e).toList := by
      rw [chronicle_concat, after_concat]
      rfl
    rw [hlog]
    rcases ih htags.of_concat with ⟨hrow, hentries, hnil⟩ | ⟨first, last, harrived, h⟩
    · rw [entryOf_of_not_hasRow hrow, hnil]
      cases heffect with
      | stays hcell hsame =>
        exact .inl ⟨fun h => hrow ((Store.hasRow_iff_of_cell?_eq hcell).1 h),
          hsame.trans hentries, rfl⟩
      | enters hfresh hholds hkey hvalid hsame hingest =>
        obtain ⟨first, harrived, htracks⟩ := arrived_last hfresh hholds hkey hingest
        refine .inr ⟨first, _, harrived, hholds, hkey, hvalid, htracks.leads, ?_⟩
        rw [hsame, hentries]
        exact .nil
      | changes he hstored => exact absurd hstored.hasRow hrow
    · refine .inr ⟨first, ?_⟩
      cases heffect with
      | stays hcell hsame hentry =>
        rw [hentry, Option.toList_none, List.append_nil]
        exact ⟨last, harrived.concat e, h.stays hcell hsame⟩
      | enters hfresh => exact absurd (h.key_eq ▸ h.holds.shows.hasRow) hfresh
      | changes he hstored =>
        subst he
        rw [entryOf, if_pos rfl]
        exact ⟨_, harrived.concat _, h.changes hstored⟩

/-! ## The changelog -/

/-- An entry that is called for belongs to the key and lists some of the fields, in their order. -/
theorem entryOf_eq_some {c : IssueChange} (h : entryOf key w w' e = some c) :
    c.issueKey = key ∧ c.diffs ≠ [] ∧
      (c.diffs.map (·.field)).Sublist (TrackedField.all.map (·.name)) := by
  unfold entryOf at h
  split at h
  · split_ifs at h
    unfold entryBetween at h
    split at h
    · split_ifs at h with hnil
      cases h
      exact ⟨rfl, hnil, Issue.names_changes_sublist _ _⟩
    · cases h
  · cases h

theorem exists_of_mem_chronicle {c : IssueChange} (h : c ∈ chronicle limits key l es) :
    ∃ w w' e, entryOf key w w' e = some c := by
  induction es generalizing l with
  | nil => cases h
  | cons e es ih =>
    rcases List.mem_append.1 h with h | h
    · exact ⟨_, _, e, Option.mem_toList.1 h⟩
    · exact ih h

/-- The changelog of an issue is read as the entries that were filed. -/
theorem run_changelog (hs : w.store.HasChanges) (h : Chronicled w.store key first log last) :
    ((changelog key).run.run w []).1 = .returned (.ok log) := by
  have hrow : ∃ effort,
      w.read (.selectByKey key) = .ok (some { last with effortToFix := effort }) :=
    h.key_eq ▸ h.holds.exists_selectByKey w.clock
  obtain ⟨effort, hrow⟩ := hrow
  have hlog : w.read (.selectChanges key) = .ok log := Store.selectChanges_of_holds hs h.filed
  have hchangelog : (changelog key).Attains World.undisturbed (fun r _ => r = .ok log) w := by
    refine Attempt.attains_bind.2 (attains_loadIssue_undisturbed hrow ?_)
    refine Attempt.attains_store.2 ⟨trivial, fun r w' hr => ?_⟩
    have hanswer : (w.store.perform w.clock (.selectChanges key)).1 = r := congrArg Prod.fst hr
    obtain rfl : r = .ok log := hanswer.symm.trans hlog
    rfl
  obtain ⟨r, w', hrun, rfl⟩ := hchangelog.runFrom_nil []
  rw [Script.run, hrun]

/-- After every run from a fresh store, with tags that can be stored, each key has no row and no
change was called for, or its changelog is read as the entries of the changes, each of them listing
the fields in question once and in order; and these lead from the row that has come in to the row
that is there now. -/
theorem changelog_replays (limits : ServiceLimits) (hw : w.store.Fresh) (htags : WellTagged es)
    (key : IssueKey) :
    (¬(after limits w es).store.HasRow key ∧ chronicle limits key ⟨w, []⟩ es = []) ∨
    ∃ first last log, Arrived limits w es key first ∧
      rowAt (after limits w es) key = some last ∧
      ((changelog key).run.run (after limits w es) []).1 = .returned (.ok log) ∧
      log = chronicle limits key ⟨w, []⟩ es ∧
      (∀ c ∈ log, c.issueKey = key ∧ c.diffs ≠ [] ∧
        (c.diffs.map (·.field)).Sublist (TrackedField.all.map (·.name))) ∧
      first.Leads log last := by
  rcases chronicled_after limits hw htags key with ⟨hrow, -, hnil⟩ | ⟨first, last, harrived, h⟩
  · exact .inl ⟨hrow, hnil⟩
  · obtain ⟨effort, hread⟩ := rowAt_of_holds h.holds
    refine .inr ⟨first, _, _, harrived, h.key_eq ▸ hread, run_changelog (hasChanges_after hw es) h,
      rfl, fun c hc => ?_, h.leads.of_tracks (tracks_effort last effort).symm⟩
    obtain ⟨w₁, w₂, e, hentry⟩ := exists_of_mem_chronicle hc
    exact entryOf_eq_some hentry

/-- A tagged issue is put into the store, its severity is set while the index is down, then set once
more to what it is, its tags are set by a user who may not, and then by one who may. -/
def sampleHistory : List Event :=
  [.ingest [{ sampleIssue "a" with tags := .ofList ["Bug"] }],
    .call (sampleChange ⟨"a"⟩) (List.replicate 5 none ++ [some (.index (.unavailable "down"))]),
    .call (sampleChange ⟨"a"⟩) [],
    .call (.change ⟨⟨"smeagol"⟩, []⟩ ⟨"a"⟩ (.setTags [])) [],
    .call (.change ⟨⟨"gandalf"⟩, []⟩ ⟨"a"⟩ (.setTags [some "Slow", none, some "bug"])) []]

theorem changelog_replays_sample : World.sample.store.Fresh ∧ WellTagged sampleHistory ∧
    ∃ first last log, Arrived {} World.sample sampleHistory ⟨"a"⟩ first ∧
      rowAt (after {} World.sample sampleHistory) ⟨"a"⟩ = some last ∧
      ((changelog ⟨"a"⟩).run.run (after {} World.sample sampleHistory) []).1 =
        .returned (.ok log) ∧
      log.map (·.diffs) = [[⟨"severity", some "MAJOR", some "BLOCKER"⟩],
        [⟨"tags", some "Bug", some "bug slow"⟩]] ∧
      first.Leads log last := by
  have hfresh : World.sample.store.Fresh := .memory
  have htags : WellTagged sampleHistory := by
    intro issues hissues
    simp only [sampleHistory, List.mem_cons, Event.ingest.injEq, reduceCtorEq, List.not_mem_nil,
      or_false] at hissues
    subst hissues
    decide +kernel
  have hrow : (after {} World.sample sampleHistory).store.HasRow ⟨"a"⟩ := by decide +kernel
  have hlog : (chronicle {} ⟨"a"⟩ ⟨World.sample, []⟩ sampleHistory).map (·.diffs) =
      [[⟨"severity", some "MAJOR", some "BLOCKER"⟩],
        [⟨"tags", some "Bug", some "bug slow"⟩]] := by decide +kernel
  rcases changelog_replays {} hfresh htags ⟨"a"⟩ with ⟨hnone, -⟩ | ⟨first, last, log, h⟩
  · exact absurd hrow hnone
  · obtain ⟨harrived, hread, hchangelog, rfl, -, hleads⟩ := h
    exact ⟨hfresh, htags, first, last, _, harrived, hread, hchangelog, hlog, hleads⟩

end Service

end Triage
