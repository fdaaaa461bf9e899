import Triage.Proofs.Service.KeySource
import Triage.Proofs.Service.Rebuild

/-!
# Recovery

What reindexing and rebuilding come to once every call is answered again.  Under a lock that is not
poisoned the document of a key becomes that of the row which is read there; a poisoned lock refuses
the reindexing of its key, and the first one that a rebuilding meets ends it.
-/

namespace Triage

namespace World

/-- The document of the row that is read at the key, if there is one. -/
def rowDoc? (w : World) (key : IssueKey) : Option IssueDoc :=
  (w.read (.selectByKey key)).toOption.join.map Issue.doc

/-- Whether every key can be read, and in memory every row stands under its own key. -/
structure Readable (w : World) : Prop where
  keyed : w.store.Keyed
  reads : ∀ key, ∃ row?, w.read (.selectByKey key) = .ok row?

/-- Whether the documents of the keys have become those of their rows while store and poisoned
locks stayed. -/
structure Resyncs (keys : List IssueKey) (w w' : World) : Prop where
  store : w'.store = w.store
  clock : w'.clock = w.clock
  poisoned : ∀ key, w'.locks.isPoisoned key = w.locks.isPoisoned key
  synced : ∀ key ∈ keys, w'.index.get? key = w.rowDoc? key
  others : ∀ key ∉ keys, w'.index.get? key = w.index.get? key

variable {w w₁ w' : World} {key : IssueKey} {keys : List IssueKey}

theorem readable_memory {m : MemoryStore} (h : w.store = .memory m) (hk : w.store.Keyed) :
    w.Readable where
  keyed := hk
  reads := fun key => ⟨m.issues.get? key, by rw [read, h]; rfl⟩

theorem rowDoc?_of_read {row? : Option Issue} (h : w.read (.selectByKey key) = .ok row?) :
    w.rowDoc? key = row?.map Issue.doc := by
  rw [rowDoc?, h]
  cases row? <;> rfl

theorem Readable.isSome_rowDoc? (h : w.Readable) (key : IssueKey) :
    (w.rowDoc? key).isSome ↔ w.store.HasRow key := by
  obtain ⟨row?, hread⟩ := h.reads key
  rw [rowDoc?_of_read hread]
  rcases Store.selectByKey_eq_ok hread with ⟨rfl, hnone⟩ | ⟨c, i, rfl, hc, -⟩
  · simp [Store.HasRow, hnone]
  · simp [Store.HasRow, hc]

theorem Readable.key_of_read (h : w.Readable) {row : Issue}
    (hread : w.read (.selectByKey key) = .ok (some row)) : row.key = key :=
  Store.key_of_selectByKey h.keyed hread

/-- What is read depends on the store and the clock alone. -/
theorem read_eq_of_eq (hs : w'.store = w.store) (hc : w'.clock = w.clock) (c : StoreCall) :
    w'.read c = w.read c := by
  rw [read, read, hs, hc]

namespace Resyncs

theorem rowDoc?_eq (h : Resyncs keys w w') (key : IssueKey) : w'.rowDoc? key = w.rowDoc? key := by
  rw [rowDoc?, rowDoc?, read_eq_of_eq h.store h.clock]

theorem readable (h : Resyncs keys w w') (hw : w.Readable) : w'.Readable where
  keyed := h.store ▸ hw.keyed
  reads := fun key => read_eq_of_eq h.store h.clock _ ▸ hw.reads key

theorem of_locks {t : LockTable} (h : ∀ key, t.isPoisoned key = w.locks.isPoisoned key) :
    Resyncs [] w { w with locks := t } :=
  ⟨rfl, rfl, h, nofun, fun _ _ => rfl⟩

theorem trans {ks : List IssueKey} (h : Resyncs ks w w₁) (h' : Resyncs keys w₁ w') :
    Resyncs (ks ++ keys) w w' where
  store := h'.store.trans h.store
  clock := h'.clock.trans h.clock
  poisoned := fun key => (h'.poisoned key).trans (h.poisoned key)
  synced := by
    intro key hk
    by_cases hin : key ∈ keys
    · rw [h'.synced key hin, h.rowDoc?_eq]
    · rw [h'.others key hin]
      exact h.synced key ((List.mem_append.1 hk).resolve_right hin)
  others := by
    intro key hk
    rw [List.mem_append, not_or] at hk
    rw [h'.others key hk.2, h.others key hk.1]

/-- The row of a key is read and its document is put. -/
theorem put (hw : w.Readable) {row : Issue} (h : w.read (.selectByKey key) = .ok (some row)) :
    Resyncs [key] w { w with index := w.index.put row.doc } := by
  obtain rfl := hw.key_of_read h
  refine ⟨rfl, rfl, fun _ => rfl, fun key hk => ?_, fun key hk => ?_⟩
  · obtain rfl := List.mem_singleton.1 hk
    rw [rowDoc?_of_read h]
    exact Index.get?_put_self _ _
  · exact (Index.get?_put _ _ _).trans (if_neg fun hr => hk (List.mem_singleton.2 hr.symm))

/-- A key is found to have no row, and its document is removed. -/
theorem remove (h : w.read (.selectByKey key) = .ok none) :
    Resyncs [key] w { w with index := w.index.remove key } := by
  refine ⟨rfl, rfl, fun _ => rfl, fun key' hk => ?_, fun key' hk => ?_⟩
  · obtain rfl := List.mem_singleton.1 hk
    rw [rowDoc?_of_read h]
    exact (Index.get?_remove _ _ _).trans (if_pos rfl)
  · exact (Index.get?_remove _ _ _).trans (if_neg fun hr => hk (List.mem_singleton.2 hr.symm))

end Resyncs

end World

namespace Service

open World Attempt

variable {w : World} {key : IssueKey}

/-! ## Under a lock -/

/-- A script under the lock of a key: refused by a poisoned lock, done and left otherwise. -/
theorem attains_locked_undisturbed {α : Type} {refused : α} {body : Script α}
    {Q : α → World → Prop}
    (hpoisoned : w.locks.isPoisoned key = true →
      Q refused { w with locks := (w.locks.enter key).2 })
    (hopen : w.locks.isPoisoned key = false →
      body.Attains undisturbed (fun a w' => Q a { w' with locks := w'.locks.leave key })
        { w with locks := (w.locks.enter key).2 }) :
    (locked key refused body).Attains undisturbed Q w := by
  refine Script.attains_bind.2 (Script.attains_single.2 ⟨trivial, fun entered w₁ h => ?_⟩)
  obtain ⟨rfl, rfl⟩ := Answers.enter (.inl h)
  rw [LockTable.enter_fst]
  cases hp : w.locks.isPoisoned key with
  | true => exact hpoisoned hp
  | false =>
    refine Script.attains_bind.2 ((hopen hp).mono fun a w' ha => ?_)
    refine Script.attains_bind.2 (Script.attains_single.2 ⟨trivial, ?_⟩)
    rintro _ _ ⟨⟩
    exact ha

/-- Work on one key under its lock, which syncs the key. -/
theorem attains_locked_resyncs {α : Type} {refused : α} {body : Script α} {a : α}
    (hw : w.Readable) (hopen : w.locks.isPoisoned key = false)
    (hbody : ∀ w₁ : World, w₁.Readable → w₁.rowDoc? key = w.rowDoc? key →
      body.Attains undisturbed (fun r w' => r = a ∧ Resyncs [key] w₁ w') w₁) :
    (locked key refused body).Attains undisturbed (fun r w' => r = a ∧ Resyncs [key] w w') w := by
  refine attains_locked_undisturbed (fun hp => absurd (hopen.symm.trans hp) nofun) fun _ => ?_
  have henter : Resyncs [] w { w with locks := (w.locks.enter key).2 } :=
    .of_locks fun key' => LockTable.isPoisoned_enter _ _ _
  refine (hbody _ (henter.readable hw) (henter.rowDoc?_eq key)).mono ?_
  rintro r w' ⟨rfl, h⟩
  have hopen' : w'.locks.isPoisoned key = false :=
    (h.poisoned key).trans ((henter.poisoned key).trans hopen)
  exact ⟨rfl, (henter.trans h).trans (.of_locks (LockTable.isPoisoned_leave hopen'))⟩

/-! ## Reindexing -/

theorem attains_indexRow_undisturbed {row : Issue} :
    (indexRow row).Attains undisturbed
      (fun r w' => r = .ok row.doc ∧ w' = { w with index := w.index.put row.doc }) w := by
  rw [← supplied_nthKey]
  exact attains_indexRow_supplied ⟨rfl, rfl⟩

theorem attains_loadIssue_undisturbed {row : Issue} {Q : Except ServiceError Issue → World → Prop}
    (h : w.read (.selectByKey key) = .ok (some row)) (hQ : Q (.ok row) w) :
    (loadIssue key).Attains undisturbed Q w := by
  refine attains_bind.2 (attains_store.2 ⟨trivial, fun r w' hr => ?_⟩)
  obtain ⟨rfl, hread⟩ := perform_read_eq (Store.perform_selectByKey _ _ _) hr
  obtain rfl : r = .ok (some row) := hread.symm.trans h
  exact hQ

/-- Reindexing a key whose lock is not poisoned succeeds. -/
theorem attains_reindex_undisturbed (hw : w.Readable) {row : Issue}
    (h : w.read (.selectByKey key) = .ok (some row)) (hopen : w.locks.isPoisoned key = false) :
    (reindex key).Attains undisturbed (fun r w' => r = .ok row.doc ∧ Resyncs [key] w w') w := by
  refine Script.attains_bind.2 ((attains_locked_resyncs (a := .ok row.doc) hw hopen ?_).mono ?_)
  · intro w₁ hw₁ hdoc
    obtain ⟨row?, hread⟩ := hw₁.reads key
    rw [rowDoc?_of_read hread, rowDoc?_of_read h] at hdoc
    obtain ⟨row', rfl, hrow⟩ := Option.map_eq_some_iff.1 hdoc
    refine attains_bind.2 (attains_loadIssue_undisturbed hread ?_)
    refine attains_indexRow_undisturbed.mono ?_
    rintro _ _ ⟨rfl, rfl⟩
    exact ⟨congrArg _ hrow, .put hw₁ hread⟩
  · rintro _ w' ⟨rfl, hsync⟩
    refine Script.attains_bind.2 (Script.attains_single.2 ⟨trivial, ?_⟩)
    rintro _ _ ⟨⟩
    exact ⟨rfl, hsync.store, hsync.clock, hsync.poisoned, hsync.synced, hsync.others⟩

/-- Reindexing a key whose lock is poisoned is refused. -/
theorem attains_reindex_poisoned (hp : w.locks.isPoisoned key = true) :
    (reindex key).Attains undisturbed
      (fun r w' => r = .error .lockPoisoned ∧ Resyncs [] w w') w := by
  refine Script.attains_bind.2 (attains_locked_undisturbed (fun _ => ?_) fun h =>
    absurd (h.symm.trans hp) nofun)
  refine Script.attains_bind.2 (Script.attains_single.2 ⟨trivial, ?_⟩)
  rintro _ _ ⟨⟩
  exact ⟨rfl, rfl, rfl, fun _ => LockTable.isPoisoned_enter _ _ _, nofun, fun _ _ => rfl⟩

/-! ## Rebuilding -/

/-- The sync of a key, whatever its document was before. -/
theorem attains_syncKey_resyncs (hw : w.Readable) :
    (syncKey key).Attains undisturbed
      (fun r w' => r = .ok (w.rowDoc? key).isSome ∧ Resyncs [key] w w') w := by
  obtain ⟨row?, hread⟩ := hw.reads key
  refine attains_bind.2 (attains_store.2 ⟨trivial, fun r w₁ h => ?_⟩)
  obtain ⟨rfl, hr⟩ := perform_read_eq (Store.perform_selectByKey _ _ _) h
  obtain rfl : r = .ok row? := hr.symm.trans hread
  rw [rowDoc?_of_read hread]
  cases row? with
  | none =>
    refine attains_bind.2 (attains_index.2 ⟨trivial, ?_⟩)
    rintro _ _ ⟨⟩
    exact ⟨rfl, .remove hread⟩
  | some row =>
    refine attains_bind.2 (attains_index.2 ⟨trivial, ?_⟩)
    rintro _ _ ⟨⟩
    exact ⟨rfl, .put hw hread⟩

/-- The keys in front of the first one whose lock is poisoned. -/
def openKeys (w : World) (keys : List IssueKey) : List IssueKey :=
  keys.takeWhile fun key => !w.locks.isPoisoned key

theorem openKeys_of_resyncs {ks keys : List IssueKey} {w' : World} (h : Resyncs ks w w') :
    openKeys w' keys = openKeys w keys := by
  unfold openKeys
  congr 1
  funext key
  rw [h.poisoned]

/-- The result of syncing the keys: how many have a row, or the error of the first poisoned
lock. -/
def syncResult (w : World) (keys : List IssueKey) : Except ServiceError Nat :=
  if keys.any w.locks.isPoisoned then .error .lockPoisoned
  else .ok (keys.countP fun key => (w.rowDoc? key).isSome)

theorem syncResult_of_resyncs {ks keys : List IssueKey} {w' : World} (h : Resyncs ks w w') :
    syncResult w' keys = syncResult w keys := by
  have hp : w'.locks.isPoisoned = w.locks.isPoisoned := funext h.poisoned
  simp only [syncResult, hp, h.rowDoc?_eq]

theorem attains_syncKeys_resyncs (hw : w.Readable) (keys : List IssueKey) :
    (syncKeys keys).Attains undisturbed
      (fun r w' => r = syncResult w keys ∧ Resyncs (openKeys w keys) w w') w := by
  induction keys generalizing w with
  | nil => exact ⟨rfl, .of_locks fun _ => rfl⟩
  | cons key keys ih =>
    cases hp : w.locks.isPoisoned key with
    | true =>
      refine attains_bind.2 (attains_locked_undisturbed (fun _ => ?_) fun h =>
        absurd (h.symm.trans hp) nofun)
      refine ⟨by simp [syncResult, hp], ?_⟩
      rw [openKeys, List.takeWhile_cons_of_neg (by simp [hp])]
      exact .of_locks fun _ => LockTable.isPoisoned_enter _ _ _
    | false =>
      have hkey : (locked key (.error .lockPoisoned) (syncKey key).run).Attains undisturbed
          (fun r w' => r = .ok (w.rowDoc? key).isSome ∧ Resyncs [key] w w') w :=
        attains_locked_resyncs hw hp fun w₁ hw₁ hdoc => hdoc ▸ attains_syncKey_resyncs hw₁
      refine attains_bind.2 (Script.Attains.mono ?_ hkey)
      rintro _ w₁ ⟨rfl, h₁⟩
      refine attains_bind.2 ((ih (h₁.readable hw)).mono ?_)
      rintro _ w' ⟨rfl, h'⟩
      rw [openKeys_of_resyncs h₁] at h'
      rw [syncResult_of_resyncs h₁, openKeys, List.takeWhile_cons_of_pos (by simp [hp])]
      cases hany : keys.any w.locks.isPoisoned with
      | true =>
        simp only [syncResult, List.any_cons, hp, hany, Bool.false_or, if_true]
        exact ⟨rfl, h₁.trans h'⟩
      | false =>
        simp only [syncResult, List.any_cons, hp, hany, Bool.false_or, Bool.false_eq_true,
          if_false, List.countP_cons]
        exact ⟨congrArg Except.ok (Nat.add_comm _ _), h₁.trans h'⟩

/-- Rebuilding the index syncs the keys of rows and documents in order, up to the first poisoned
lock. -/
theorem attains_indexAll_resyncs (hw : w.Readable) {rows : List Issue}
    (hrows : w.read .selectAll = .ok rows) :
    indexAll.Attains undisturbed (fun r w' => r = syncResult w (keysToSync rows w.index.keys) ∧
      Resyncs (openKeys w (keysToSync rows w.index.keys)) w w') w := by
  have hrebuild : rebuild.Attains undisturbed
      (fun r w' => r = syncResult w (keysToSync rows w.index.keys) ∧
        Resyncs (openKeys w (keysToSync rows w.index.keys)) w w') w := by
    refine attains_bind.2 (attains_store.2 ⟨trivial, fun r w₁ h => ?_⟩)
    obtain ⟨rfl, hr⟩ := perform_read_eq (Store.perform_selectAll _ _) h
    obtain rfl : r = .ok rows := hr.symm.trans hrows
    refine attains_bind.2 (attains_index.2 ⟨trivial, ?_⟩)
    rintro _ _ ⟨⟩
    exact attains_syncKeys_resyncs hw _
  refine Script.attains_bind.2 (hrebuild.mono ?_)
  rintro _ w' ⟨rfl, h⟩
  refine Script.attains_bind.2 (Script.attains_single.2 ⟨trivial, ?_⟩)
  rintro _ _ ⟨⟩
  exact ⟨rfl, h.store, h.clock, h.poisoned, h.synced, h.others⟩

/-! ## Keys that a rebuilding reaches -/

/-- Whether a rebuilding would stop at the key. -/
def Blocked (w : World) (key : IssueKey) : Prop :=
  (w.store.HasRow key ∨ (w.index.get? key).isSome) ∧ w.locks.isPoisoned key = true

/-- In increasing keys, those in front of the first one that fails a test are those below all that
fail it. -/
theorem mem_takeWhile_iff {p : IssueKey → Bool} {keys : List IssueKey}
    (hkeys : keys.Pairwise (· < ·)) :
    key ∈ keys.takeWhile p ↔ key ∈ keys ∧ ∀ k ∈ keys, p k = false → key < k := by
  induction keys with
  | nil => simp
  | cons x keys ih =>
    obtain ⟨hx, hkeys⟩ := List.pairwise_cons.1 hkeys
    cases hp : p x with
    | false =>
      rw [List.takeWhile_cons_of_neg (by simp [hp])]
      refine ⟨nofun, fun ⟨hmem, h⟩ => ?_⟩
      have hlt := h x List.mem_cons_self hp
      rcases List.mem_cons.1 hmem with rfl | hmem
      · exact absurd hlt (Id.lt_irrefl _)
      · exact absurd (Id.lt_trans hlt (hx _ hmem)) (Id.lt_irrefl _)
    | true =>
      rw [List.takeWhile_cons_of_pos hp, List.mem_cons, ih hkeys, List.forall_mem_cons, hp]
      constructor
      · rintro (rfl | ⟨hmem, h⟩)
        · exact ⟨List.mem_cons_self, nofun, fun k hk _ => hx k hk⟩
        · exact ⟨List.mem_cons_of_mem _ hmem, nofun, h⟩
      · rintro ⟨hmem, -, h⟩
        exact (List.mem_cons.1 hmem).imp_right fun hmem => ⟨hmem, h⟩

/-- What a rebuilding comes to: the keys below all that are blocked are synced and the others stay,
and it succeeds, with the number of rows, exactly if none is blocked. -/
structure Rebuilds (w : World) (r : Except ServiceError Nat) (w' : World) : Prop where
  store : w'.store = w.store
  ok : (∀ key, ¬Blocked w key) → ∃ rows, w.read .selectAll = .ok rows ∧ r = .ok rows.length
  blocked : ∀ key, Blocked w key → r = .error .lockPoisoned
  synced : ∀ key, (∀ k, Blocked w k → key < k) → w'.index.get? key = w.rowDoc? key
  others : ∀ key k, Blocked w k → ¬key < k → w'.index.get? key = w.index.get? key

theorem rebuilds_of_resyncs (hw : w.Readable) {rows : List Issue} {w' : World}
    (hrows : w.read .selectAll = .ok rows)
    (h : Resyncs (openKeys w (keysToSync rows w.index.keys)) w w') :
    Rebuilds w (syncResult w (keysToSync rows w.index.keys)) w' := by
  have hkeys : rows.map (·.key) = w.store.keys := Store.selectAll_eq_ok hw.keyed hrows
  have hmem (key : IssueKey) : key ∈ keysToSync rows w.index.keys ↔
      w.store.HasRow key ∨ (w.index.get? key).isSome := by
    rw [mem_keysToSync, hkeys, Store.mem_keys_iff, Index.mem_keys_iff]
  have hblocked (key : IssueKey) : Blocked w key ↔
      key ∈ keysToSync rows w.index.keys ∧ w.locks.isPoisoned key = true := by
    rw [Blocked, hmem]
  have hopen (key : IssueKey) : key ∈ openKeys w (keysToSync rows w.index.keys) ↔
      key ∈ keysToSync rows w.index.keys ∧ ∀ k, Blocked w k → key < k := by
    have hsorted : (keysToSync rows w.index.keys).Pairwise (· < ·) := KeyMap.sorted_keys _
    simp only [openKeys, mem_takeWhile_iff hsorted, hblocked, Bool.not_eq_false', and_imp]
  refine ⟨h.store, fun hnone => ⟨rows, hrows, ?_⟩, fun key hkey => ?_, fun key hkey => ?_,
    fun key k hk hle => h.others key fun hin => hle (((hopen key).1 hin).2 k hk)⟩
  · have hany : (keysToSync rows w.index.keys).any w.locks.isPoisoned = false := by
      rw [List.any_eq_false]
      exact fun key hin hp => hnone key ((hblocked key).2 ⟨hin, hp⟩)
    rw [syncResult, hany, if_neg Bool.false_ne_true, ← rowCount_keysToSync hkeys]
    refine congrArg Except.ok (List.countP_congr fun key _ => ?_)
    exact hw.isSome_rowDoc? key
  · rw [syncResult, if_pos (List.any_eq_true.2 ⟨key, (hblocked key).1 hkey⟩)]
  · by_cases hin : key ∈ keysToSync rows w.index.keys
    · exact h.synced key ((hopen key).2 ⟨hin, hkey⟩)
    · have hno := not_or.1 (mt (hmem key).2 hin)
      rw [h.others key fun ho => hin ((hopen key).1 ho).1,
        Option.not_isSome_iff_eq_none.1 hno.2,
        Option.not_isSome_iff_eq_none.1 (mt (hw.isSome_rowDoc? key).1 hno.1)]

/-- A rebuilding that is left undisturbed ends so. -/
theorem indexAll_rebuilds (hw : w.Readable) {rows : List Issue}
    (hrows : w.read .selectAll = .ok rows) :
    ∃ r w', indexAll.run w [] = (.returned r, w') ∧ Rebuilds w r w' := by
  obtain ⟨r, w', hrun, rfl, h⟩ := (attains_indexAll_resyncs hw hrows).runFrom_nil []
  exact ⟨_, w', hrun, rebuilds_of_resyncs hw hrows h⟩

end Service

end Triage
