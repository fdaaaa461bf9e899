import Triage.Proofs.Service.Atomicity

/-!
# The index as a mirror of the store

A key is in sync if its document shows its row, or if it has neither.  Work on an index *amends* it
if each document is left as it was or brought in sync; what else may run beside a call that holds
locks amends the index too, and leaves the held keys alone.
-/

namespace Triage

namespace World

/-- Whether the document of the key is that of an issue which the row of the key shows. -/
def Mirrors (w : World) (key : IssueKey) : Prop :=
  ∃ i : Issue, i.key = key ∧ w.index.get? key = some i.doc ∧ w.store.Shows i

/-- Whether the key is mirrored, or has neither row nor document. -/
def InSync (w : World) (key : IssueKey) : Prop :=
  w.Mirrors key ∨ ¬w.store.HasRow key ∧ w.index.get? key = none

/-- Whether row and document of the key are the same in both worlds. -/
def Untouched (w w' : World) (key : IssueKey) : Prop :=
  w'.store.cell? key = w.store.cell? key ∧ w'.index.get? key = w.index.get? key

/-- Whether the keys with rows are the same, no lock is poisoned that was not, and each key is
untouched or in sync. -/
structure Amends (w w' : World) : Prop where
  keyed : w.store.Keyed → w'.store.Keyed
  hasRow : ∀ key, w'.store.HasRow key ↔ w.store.HasRow key
  poisoned : ∀ key, w'.locks.isPoisoned key = w.locks.isPoisoned key
  keys : ∀ key, w.Untouched w' key ∨ w'.InSync key

/-- Whether what happened amends the index without touching a held key or its lock. -/
structure Calm (w w' : World) : Prop extends w.Amends w' where
  isHeld : ∀ key, w'.locks.isHeld key = w.locks.isHeld key
  held : ∀ key, w.locks.isHeld key = true → w.Untouched w' key

variable {w w₁ w' : World} {key : IssueKey}

theorem Mirrors.hasRow (h : w.Mirrors key) : w.store.HasRow key := by
  obtain ⟨i, rfl, -, hi⟩ := h
  exact hi.hasRow

theorem InSync.mirrors (h : w.InSync key) (hrow : w.store.HasRow key) : w.Mirrors key :=
  h.resolve_right fun h => h.1 hrow

theorem InSync.hasRow (h : w.InSync key) (hdoc : (w.index.get? key).isSome) :
    w.store.HasRow key := by
  rcases h with h | ⟨-, hnone⟩
  · exact h.hasRow
  · rw [hnone] at hdoc
    cases hdoc

theorem Untouched.refl (w : World) (key : IssueKey) : w.Untouched w key := ⟨rfl, rfl⟩

theorem Untouched.trans (h : w.Untouched w₁ key) (h' : w₁.Untouched w' key) :
    w.Untouched w' key :=
  ⟨h'.1.trans h.1, h'.2.trans h.2⟩

theorem Untouched.mirrors (h : w.Untouched w' key) (hm : w.Mirrors key) : w'.Mirrors key := by
  obtain ⟨i, rfl, hdoc, hshows⟩ := hm
  exact ⟨i, rfl, h.2.trans hdoc, (Store.shows_iff_of_cell?_eq h.1).2 hshows⟩

theorem Untouched.inSync (h : w.Untouched w' key) (hs : w.InSync key) : w'.InSync key := by
  rcases hs with hm | ⟨hrow, hdoc⟩
  · exact .inl (h.mirrors hm)
  · refine .inr ⟨fun hr => hrow ((Store.hasRow_iff_of_cell?_eq h.1).1 hr), h.2.trans hdoc⟩

theorem Amends.refl (w : World) : w.Amends w :=
  ⟨id, fun _ => Iff.rfl, fun _ => rfl, fun key => .inl (.refl w key)⟩

theorem Amends.inSync (h : w.Amends w') (hs : w.InSync key) : w'.InSync key :=
  (h.keys key).elim (fun hu => hu.inSync hs) id

theorem Amends.trans (h : w.Amends w₁) (h' : w₁.Amends w') : w.Amends w' where
  keyed := h'.keyed ∘ h.keyed
  hasRow := fun key => (h'.hasRow key).trans (h.hasRow key)
  poisoned := fun key => (h'.poisoned key).trans (h.poisoned key)
  keys := by
    intro key
    rcases h.keys key with hu | hs
    · exact (h'.keys key).imp_left hu.trans
    · exact .inr (h'.inSync hs)

theorem Calm.refl (w : World) : w.Calm w :=
  ⟨.refl w, fun _ => rfl, fun key _ => .refl w key⟩

theorem Calm.trans (h : w.Calm w₁) (h' : w₁.Calm w') : w.Calm w' where
  toAmends := h.toAmends.trans h'.toAmends
  isHeld := fun key => (h'.isHeld key).trans (h.isHeld key)
  held := fun key hk => (h.held key hk).trans (h'.held key ((h.isHeld key).trans hk))

/-! ## Documents and what is read -/

/-- Whether the document of the key is that of the row that is read there; none if there is no
row. -/
def Agrees (w : World) (key : IssueKey) : Prop :=
  ∃ row?, w.read (.selectByKey key) = .ok row? ∧ w.index.get? key = row?.map Issue.doc

/-- Whether the rows can be listed, and the issues whose documents are indexed are kept. -/
structure StoreWorks (w : World) : Prop where
  lists : ∃ rows, w.read .selectAll = .ok rows
  keeps : ∀ i : Issue, w.index.get? i.key = some i.doc → w.store.Keeps i

theorem storeWorks_memory {m : MemoryStore} (h : w.store = .memory m) : w.StoreWorks where
  lists := ⟨m.issues.values, by rw [read, h]; rfl⟩
  keeps := fun i _ => h ▸ Store.keeps_memory m i

theorem InSync.agrees (h : w.InSync key) (hw : w.StoreWorks) : w.Agrees key := by
  rcases h with ⟨i, rfl, hdoc, hshows⟩ | ⟨hrow, hdoc⟩
  · exact ⟨some i, hshows.selectByKey_iff.2 (hw.keeps i hdoc), hdoc⟩
  · obtain ⟨rows, hrows⟩ := hw.lists
    exact ⟨none, Store.selectByKey_of_not_hasRow hrows hrow, hdoc⟩

/-- Whether the index has the document of the row that lies at the key; the row is read back exactly
if the store keeps it. -/
def ShowsRow (w : World) (key : IssueKey) (row : Issue) : Prop :=
  row.key = key ∧ w.store.Shows row ∧ w.index.get? key = some row.doc ∧
    (w.read (.selectByKey key) = .ok (some row) ↔ w.store.Keeps row)

theorem Mirrors.showsRow (h : w.Mirrors key) : ∃ row, w.ShowsRow key row := by
  obtain ⟨row, rfl, hdoc, hshows⟩ := h
  exact ⟨row, rfl, hshows, hdoc, hshows.selectByKey_iff⟩

/-- Whether the key has the document of its row, or neither row nor document. -/
def Accounted (w : World) (key : IssueKey) : Prop :=
  (∃ row, w.ShowsRow key row) ∨ ¬w.store.HasRow key ∧ w.index.get? key = none

theorem InSync.accounted (h : w.InSync key) : w.Accounted key := h.imp_left Mirrors.showsRow

/-! ## Documents put and removed -/

theorem mirrors_put {i : Issue} (h : w.store.Shows i) :
    { w with index := w.index.put i.doc : World }.Mirrors i.key :=
  ⟨i, rfl, Index.get?_put_self _ _, h⟩

/-- The document of a row that is there is put. -/
theorem amends_put {i : Issue} (h : w.store.Shows i) :
    w.Amends { w with index := w.index.put i.doc } where
  keyed := id
  hasRow := fun _ => Iff.rfl
  poisoned := fun _ => rfl
  keys := by
    intro key
    by_cases hk : i.key = key
    · subst hk
      exact .inr (.inl (mirrors_put h))
    · exact .inl ⟨rfl, (Index.get?_put _ _ _).trans (if_neg hk)⟩

theorem inSync_remove (h : ¬w.store.HasRow key) :
    { w with index := w.index.remove key : World }.InSync key :=
  .inr ⟨h, (Index.get?_remove _ _ _).trans (if_pos rfl)⟩

/-- The document of a key without a row is removed. -/
theorem amends_remove (h : ¬w.store.HasRow key) :
    w.Amends { w with index := w.index.remove key } where
  keyed := id
  hasRow := fun _ => Iff.rfl
  poisoned := fun _ => rfl
  keys := by
    intro key'
    by_cases hk : key = key'
    · subst hk
      exact .inr (inSync_remove h)
    · exact .inl ⟨rfl, (Index.get?_remove _ _ _).trans (if_neg hk)⟩

/-- Only the locks change, and none becomes poisoned. -/
theorem amends_locks {t : LockTable} (h : ∀ key, t.isPoisoned key = w.locks.isPoisoned key) :
    w.Amends { w with locks := t } :=
  ⟨id, fun _ => Iff.rfl, h, fun _ => .inl ⟨rfl, rfl⟩⟩

end World

namespace Service

open World

variable {limits : ServiceLimits} {principal : Principal} {key : IssueKey} {m : Mutation}
  {w w' : World}

theorem IssueCall.Ends.changed {d : IssueDoc} (hw : w.store.Keyed)
    (h : (IssueCall.change principal key m).Ends limits w (.ok d) w') :
    ∃ old row, StoredChange limits principal key m w old row w'.store ∧ d = row.doc ∧
      w'.index = w.index.put row.doc := by
  obtain ⟨row, hrow, hd, hindex⟩ := h.exit.of_ok
  obtain ⟨old, hs⟩ := Changes.stored hw hrow
  exact ⟨old, row, hs, hd, hindex⟩

/-- A successful change, seen by calls that do not hold its key. -/
theorem calm_of_change {d : IssueDoc} (hw : w.store.Keyed)
    (hpoisoned : w.locks.isPoisoned key = false) (hheld : w.locks.isHeld key = false)
    (h : (IssueCall.change principal key m).Ends limits w (.ok d) w') : w.Calm w' := by
  obtain ⟨old, row, hs, rfl, hindex⟩ := h.changed hw
  have hother {key' : IssueKey} (hk : key ≠ key') : w.Untouched w' key' := by
    constructor
    · exact hs.writes.others key' (by simpa [hs.key_eq] using hk)
    · rw [hindex]
      exact (Index.get?_put _ _ _).trans (if_neg (by rw [← hs.key_eq] at hk; exact hk))
  refine ⟨⟨hs.writes.keyed, fun key' => ?_, fun key' => ?_, fun key' => ?_⟩, fun key' => ?_,
    fun key' hk => hother ?_⟩
  · rw [hs.writes.hasRow_iff, or_iff_left_iff_imp]
    rintro ⟨i, hi, rfl⟩
    obtain rfl := List.mem_singleton.1 hi
    rw [hs.key_eq]
    exact hs.hasRow
  · rw [h.locks]
    exact LockTable.isPoisoned_passed hpoisoned key'
  · by_cases hk : key = key'
    · subst hk
      refine .inr (.inl ⟨row, hs.key_eq, ?_, (hs.writes.holds row (by simp)).shows⟩)
      rw [hindex, ← hs.key_eq]
      exact Index.get?_put_self _ _
    · exact .inl (hother hk)
  · rw [h.locks]
    by_cases hk : key = key'
    · subst hk
      rw [hheld]
      exact LockTable.isHeld_passed_self hpoisoned
    · exact LockTable.isHeld_passed_of_ne hk
  · rintro rfl
    rw [hheld] at hk
    cases hk

end Service

end Triage
