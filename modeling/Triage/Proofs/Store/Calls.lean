import Triage.Proofs.Store.Content

/-!
# What the calls of a store do

A call that fails leaves the store as it was, and so does a call that reads.  A successful insertion
and a successful update are told by the cells and entries that they change; all others stay.
-/

namespace Triage

namespace Store

/-- The rows of a list are held, and the cells under all other keys are as before. -/
structure Writes (s s' : Store) (rows : List Issue) : Prop where
  holds : ∀ i ∈ rows, s'.Holds i
  others : ∀ key, (∀ i ∈ rows, i.key ≠ key) → s'.cell? key = s.cell? key

/-- The change, if there is one, stands at the end of its changelog, and all else in the changelogs
is as before. -/
structure Logs (s s' : Store) (change : Option IssueChange) : Prop where
  filed : ∀ c ∈ change, ∃ e : Entry, e.Holds c ∧ s'.entries c.issueKey = s.entries c.issueKey ++ [e]
  others : ∀ key, (∀ c ∈ change, c.issueKey ≠ key) → s'.entries key = s.entries key

/-- What a successful insertion at `now` does: the rows are new, they are held, and no changelog
changes. -/
structure Inserts (s s' : Store) (now : Timestamp) (issues rows : List Issue) : Prop where
  rows_eq : rows = issues.map (·.inserted now)
  fresh : ∀ i ∈ issues, ¬s.HasRow i.key
  writes : s.Writes s' rows
  logs : s.Logs s' none

/-- What a successful update at `now` does: a row gives way to one with its creation stamp and a
later stamp of update, and the differences are filed if there are any. -/
structure Updates (s s' : Store) (now : Timestamp) (i row : Issue) (user : Login)
    (diffs : List FieldDiff) : Prop where
  hasRow : s.HasRow i.key
  key_eq : row.key = i.key
  row_eq : ∀ c old, s.cell? i.key = some c → c.Shows old →
    row = i.updated old.createdAt old.updatedAt now
  writes : s.Writes s' [row]
  logs : s.Logs s'
    (if diffs.isEmpty then none else some ⟨row.key, user, row.updatedAt, diffs⟩)

theorem Writes.keyed {s s' : Store} {rows : List Issue} (h : s.Writes s' rows) (hs : s.Keyed) :
    s'.Keyed := by
  intro key i hi
  by_cases hk : ∃ j ∈ rows, j.key = key
  · obtain ⟨j, hj, rfl⟩ := hk
    obtain ⟨c, hc, hholds⟩ := h.holds j hj
    cases hi.symm.trans hc
    exact congrArg (fun j : Issue => j.key) hholds
  · rw [h.others key fun j hj hjk => hk ⟨j, hj, hjk⟩] at hi
    exact hs key i hi

theorem Writes.hasRow_iff {s s' : Store} {rows : List Issue} (h : s.Writes s' rows)
    (key : IssueKey) : s'.HasRow key ↔ s.HasRow key ∨ ∃ i ∈ rows, i.key = key := by
  by_cases hk : ∃ i ∈ rows, i.key = key
  · obtain ⟨i, hi, rfl⟩ := hk
    exact ⟨fun _ => .inr ⟨i, hi, rfl⟩, fun _ => (h.holds i hi).shows.hasRow⟩
  · rw [hasRow_iff_of_cell?_eq (h.others key fun i hi hik => hk ⟨i, hi, hik⟩), or_iff_left hk]

theorem Logs.refl (s : Store) : s.Logs s none where
  filed := by simp
  others := fun _ _ => rfl

theorem Logs.after {s s₁ s' : Store} {change : Option IssueChange} (h : s.Logs s₁ none)
    (h' : s₁.Logs s' change) : s.Logs s' change where
  filed := by
    intro c hc
    obtain ⟨e, he, heq⟩ := h'.filed c hc
    exact ⟨e, he, by rw [heq, h.others _ (by simp)]⟩
  others := fun key hkey => by rw [h'.others key hkey, h.others key (by simp)]

namespace Inserts

variable {s s₁ s' : Store} {now : Timestamp} {i row : Issue} {is rows : List Issue}

theorem nil (s : Store) (now : Timestamp) : s.Inserts s now [] [] where
  rows_eq := rfl
  fresh := by simp
  writes := ⟨by simp, fun _ _ => rfl⟩
  logs := .refl s

/-- The insertions of a batch one after the other. -/
theorem cons (h : s.Inserts s₁ now [i] [row]) (hs : s₁.Inserts s' now is rows) :
    s.Inserts s' now (i :: is) (row :: rows) := by
  obtain rfl : row = i.inserted now := by simpa using h.rows_eq
  have hrow : s₁.Holds (i.inserted now) := h.writes.holds _ (by simp)
  -- the later rows are new beside the first one
  have hne : ∀ j ∈ rows, j.key ≠ i.key := by
    rw [hs.rows_eq]
    rintro j hj heq
    obtain ⟨j', hj', rfl⟩ := List.mem_map.1 hj
    exact hs.fresh j' hj' (show s₁.HasRow (j'.inserted now).key from heq ▸ hrow.shows.hasRow)
  refine ⟨by simp [hs.rows_eq], ?_, ⟨?_, ?_⟩, ⟨by simp, fun key _ => ?_⟩⟩
  · intro j hj
    rcases List.mem_cons.1 hj with rfl | hj
    · exact h.fresh _ (by simp)
    · have hj' : i.key ≠ j.key := by
        rw [hs.rows_eq] at hne
        exact (hne _ (List.mem_map_of_mem hj)).symm
      rw [← hasRow_iff_of_cell?_eq (h.writes.others j.key (by simpa using! hj'))]
      exact hs.fresh j hj
  · intro j hj
    rcases List.mem_cons.1 hj with rfl | hj
    · obtain ⟨c, hc, hci⟩ := hrow
      exact ⟨c, (hs.writes.others _ hne).trans hc, hci⟩
    · exact hs.writes.holds j hj
  · intro key hkey
    rw [hs.writes.others key fun j hj => hkey j (List.mem_cons_of_mem _ hj),
      h.writes.others key (by simpa using hkey _ List.mem_cons_self)]
  · rw [hs.logs.others key (by simp), h.logs.others key (by simp)]

end Inserts

end Store

/-! ## In memory -/

namespace MemoryStore

open Store (Writes Logs Inserts Updates)

variable {m m' : MemoryStore} {now : Timestamp} {i row : Issue}

theorem writes_put (m : MemoryStore) (row : Issue) :
    Writes (.memory m) (.memory (m.put row)) [row] where
  holds := by
    simp only [List.mem_singleton, forall_eq]
    exact ⟨.issue row, by simp [Store.cell?, put], rfl⟩
  others := by
    simp only [List.mem_singleton, forall_eq]
    intro key hkey
    simp [Store.cell?, put, KeyMap.get?_insert_of_ne _ hkey]

theorem logs_put (m : MemoryStore) (row : Issue) :
    Logs (.memory m) (.memory (m.put row)) none where
  filed := by simp
  others := fun _ _ => rfl

theorem changelog_append (m : MemoryStore) (c : IssueChange) (key : IssueKey) :
    (m.append c).changelog key =
      if c.issueKey = key then m.changelog key ++ [c] else m.changelog key := by
  unfold changelog append
  rw [KeyMap.get?_insert]
  split_ifs with h
  · subst h
    rfl
  · rfl

theorem logs_append (m : MemoryStore) (c : IssueChange) :
    Logs (.memory m) (.memory (m.append c)) (some c) where
  filed := by
    rintro _ ⟨⟩
    refine ⟨.change c, rfl, ?_⟩
    simp [Store.entries, changelog_append]
  others := by
    intro key hkey
    simp [Store.entries, changelog_append, hkey c rfl]

theorem logs_appendNonempty (m : MemoryStore) (c : IssueChange) :
    Logs (.memory m) (.memory (m.appendNonempty c)) (if c.diffs.isEmpty then none else some c) := by
  unfold appendNonempty
  split_ifs
  · exact .refl _
  · exact logs_append m c

theorem cell?_appendNonempty (m : MemoryStore) (c : IssueChange) (key : IssueKey) :
    Store.cell? (.memory (m.appendNonempty c)) key = Store.cell? (.memory m) key := by
  unfold appendNonempty
  split_ifs <;> rfl

theorem firstTaken?_eq_none {seen : List IssueKey} {is : List Issue}
    (h : m.firstTaken? seen is = none) :
    (∀ i ∈ is, m.issues.get? i.key = none ∧ i.key ∉ seen) ∧ (is.map (·.key)).Nodup := by
  induction is generalizing seen with
  | nil => simp
  | cons i is ih =>
    unfold firstTaken? at h
    split_ifs at h with hi
    have hi' : m.issues.get? i.key = none ∧ i.key ∉ seen := by
      simpa [KeyMap.contains] using hi
    obtain ⟨hfresh, hnodup⟩ := ih h
    refine ⟨?_, ?_⟩
    · intro j hj
      rcases List.mem_cons.1 hj with rfl | hj
      · exact hi'
      · exact ⟨(hfresh j hj).1, fun hs => (hfresh j hj).2 (List.mem_cons_of_mem _ hs)⟩
    · refine List.nodup_cons.2 ⟨fun hk => ?_, hnodup⟩
      obtain ⟨j, hj, heq⟩ := List.mem_map.1 hk
      exact (hfresh j hj).2 (heq ▸ List.mem_cons_self)

theorem inserts_foldl_put {is : List Issue} (hfresh : ∀ i ∈ is, m.issues.get? i.key = none)
    (hnodup : (is.map (·.key)).Nodup) :
    Inserts (.memory m) (.memory ((is.map (·.inserted now)).foldl put m)) now is
      (is.map (·.inserted now)) := by
  induction is generalizing m with
  | nil => exact .nil _ _
  | cons i is ih =>
    obtain ⟨hi, hnodup⟩ := List.nodup_cons.1 hnodup
    have hput :
        Inserts (.memory m) (.memory (m.put (i.inserted now))) now [i] [i.inserted now] := by
      refine ⟨by simp, ?_, writes_put m _, logs_put m _⟩
      simpa [Store.HasRow, Store.cell?] using hfresh i List.mem_cons_self
    refine hput.cons (ih (fun j hj => ?_) hnodup)
    have hne : i.key ≠ j.key := fun h => hi (List.mem_map.2 ⟨j, hj, h.symm⟩)
    exact (KeyMap.get?_insert_of_ne _ hne _).trans (hfresh j (List.mem_cons_of_mem _ hj))

theorem inserts_of_insert {is rows : List Issue} (h : m.insert now is = (.ok rows, m')) :
    Inserts (.memory m) (.memory m') now is rows := by
  unfold insert at h
  split at h
  case h_1 => cases h
  case h_2 hnone =>
    cases h
    obtain ⟨hfresh, hnodup⟩ := firstTaken?_eq_none hnone
    exact inserts_foldl_put (fun i hi => (hfresh i hi).1) hnodup

theorem updates_of_updateWithChange {user : Login} {diffs : List FieldDiff}
    (h : m.updateWithChange now i user diffs = (.ok row, m')) :
    Updates (.memory m) (.memory m') now i row user diffs := by
  unfold updateWithChange update at h
  rcases hold : m.issues.get? i.key with _ | old
  · simp [hold] at h
  · simp only [hold, Prod.mk.injEq, Except.ok.injEq] at h
    obtain ⟨rfl, rfl⟩ := h
    have hcell : Store.cell? (.memory m) i.key = some (.issue old) := by simp [Store.cell?, hold]
    have hput := writes_put m (i.updated old.createdAt old.updatedAt now)
    refine ⟨by simp [Store.HasRow, hcell], rfl, ?_, ⟨?_, ?_⟩,
      (logs_put m _).after (logs_appendNonempty (m.put _) _)⟩
    · rintro c old' hc (hr | hr)
      all_goals
        rw [hcell] at hc
        cases hc
        cases hr
        rfl
    · intro j hj
      obtain ⟨c, hc, hi⟩ := hput.holds j hj
      exact ⟨c, (cell?_appendNonempty _ _ _).trans hc, hi⟩
    · intro key hkey
      exact (cell?_appendNonempty _ _ _).trans (hput.others key hkey)

theorem keyed_put (h : (Store.memory m).Keyed) (row : Issue) :
    (Store.memory (m.put row)).Keyed := by
  intro key i hi
  by_cases hk : row.key = key
  · subst hk
    have hi' : row = i := by simpa [Store.cell?, put] using hi
    rw [hi']
  · rw [(writes_put m row).others key (by simpa using hk)] at hi
    exact h key i hi

theorem keyed_foldl_put (h : (Store.memory m).Keyed) (rows : List Issue) :
    (Store.memory (rows.foldl put m)).Keyed := by
  induction rows generalizing m with
  | nil => exact h
  | cons row rows ih => exact ih (keyed_put h row)

theorem keyed_perform (h : (Store.memory m).Keyed) (now : Timestamp) (c : StoreCall) :
    (Store.memory (m.perform now c).2).Keyed := by
  cases c with
  | selectByKey | selectAll | selectChanges => exact h
  | insert is =>
    simp only [perform, insert]
    split
    · exact h
    · exact keyed_foldl_put h _
  | update i =>
    simp only [perform, update]
    split
    · exact h
    · exact keyed_put h _
  | updateWithChange i user diffs =>
    rcases hold : m.issues.get? i.key with _ | old
    · simpa [perform, updateWithChange, update, hold] using h
    · simp only [perform, updateWithChange, update, hold]
      intro key j hj
      rw [cell?_appendNonempty] at hj
      exact keyed_put h _ key j hj
  | insertChange c =>
    simp only [perform, insertChange]
    split <;> exact h

theorem perform_of_error {m : MemoryStore} {now : Timestamp} {c : StoreCall}
    {e : StoreError} (h : (m.perform now c).1 = .error e) : (m.perform now c).2 = m := by
  cases c with
  | selectByKey | selectAll | selectChanges => rfl
  | insert is =>
    simp only [perform, insert] at h ⊢
    split at h <;> simp_all
  | update i => rcases hold : m.issues.get? i.key with _ | old <;> simp_all [perform, update]
  | updateWithChange i =>
    rcases hold : m.issues.get? i.key with _ | old <;> simp_all [perform, updateWithChange, update]
  | insertChange c =>
    simp only [perform, insertChange] at h ⊢
    split at h <;> simp_all

end MemoryStore

/-! ## On a database -/

namespace Database

open Store (Writes Logs Inserts Updates)

variable {db db' : Database} {now : Timestamp} {i row : Issue}

theorem commit_eq_ok {α : Type} {t : Transaction α} {a : α} (h : db.commit t = (.ok a, db')) :
    t.run db = .ok (a, db') := by
  unfold commit at h
  split at h <;> simp_all

theorem commit_of_error {α : Type} {t : Transaction α} {e : DatabaseError}
    (h : (db.commit t).1 = .error e) : (db.commit t).2 = db := by
  unfold commit at h ⊢
  split at h <;> simp_all

theorem writes_of_rows_eq {r : IssueRow} (hr : IssueRow.ofIssue row = .ok r)
    (h : db'.rows = db.rows.insert row.key r) : Writes (.database db) (.database db') [row] where
  holds := by
    simp only [List.mem_singleton, forall_eq]
    exact ⟨.row r, by simp [Store.cell?, h], hr⟩
  others := by
    simp only [List.mem_singleton, forall_eq]
    intro key hkey
    simp [Store.cell?, h, KeyMap.get?_insert_of_ne _ hkey]

theorem logs_of_changes_eq (h : db'.changes = db.changes) :
    Logs (.database db) (.database db') none where
  filed := by simp
  others := fun key _ => by simp [Store.entries, filedUnder, h]

namespace Transaction

theorem run_row?_eq_ok {key : IssueKey} {r : Option IssueRow}
    (h : (row? key).run db = .ok (r, db')) : r = db.rows.get? key ∧ db' = db := by
  unfold row? at h
  simp only [run_bind_eq_ok, StateT.run_get, pure_eq_ok] at h
  simp at h
  obtain ⟨t, ht, rfl, rfl⟩ := h
  rw [rows_of_issueTable ht]
  exact ⟨rfl, rfl⟩

theorem run_setRow_eq_ok {key : IssueKey} {r : IssueRow} {u : Unit}
    (h : (setRow key r).run db = .ok (u, db')) :
    db'.rows = db.rows.insert key r ∧ db'.changes = db.changes := by
  unfold setRow at h
  simp at h
  obtain ⟨t, ht, rfl⟩ := h
  rw [rows_of_issueTable ht]
  exact ⟨rfl, rfl⟩

theorem run_fileChange_eq_ok {c : IssueChange} {u : Unit}
    (h : (fileChange c).run db = .ok (u, db')) :
    db'.rows = db.rows ∧ Logs (.database db) (.database db') (some c) := by
  unfold fileChange at h
  simp at h
  obtain ⟨bytes, hbytes, t, ht, rfl⟩ := h
  have hbefore := Store.entries_of_changes (changeTable_eq_ok.1 ht)
  have hafter (key : IssueKey) := Store.entries_of_changes
    (show { db with changes := some (t.file c.issueKey c.createdAt (.blob bytes)) }.changes = _
      from rfl) key
  refine ⟨rfl, ⟨?_, fun key hkey => ?_⟩⟩
  · rintro _ ⟨⟩
    refine ⟨.row ⟨t.lastId + 1, c.issueKey, c.createdAt, .blob bytes⟩,
      ⟨rfl, rfl, bytes, hbytes, rfl⟩, ?_⟩
    rw [hbefore, hafter, ChangeTable.filedUnder_file]
    simp
  · rw [hbefore, hafter, ChangeTable.filedUnder_file]
    simp [hkey c rfl]

theorem run_insertIssue_eq_ok (h : (insertIssue now i).run db = .ok (row, db')) :
    Inserts (.database db) (.database db') now [i] [row] := by
  unfold insertIssue at h
  simp at h
  obtain ⟨old, db₁, hold, h⟩ := h
  obtain ⟨rfl, rfl⟩ := run_row?_eq_ok hold
  split_ifs at h with hi <;> simp at h
  obtain ⟨r, hr, ⟨u, hset⟩, rfl⟩ := h
  obtain ⟨hrows, hchanges⟩ := run_setRow_eq_ok hset
  refine ⟨by simp, ?_, writes_of_rows_eq hr hrows, logs_of_changes_eq hchanges⟩
  simpa [Store.HasRow, Store.cell?] using hi

theorem run_updateIssue_eq_ok (h : (updateIssue now i).run db = .ok (row, db')) :
    ∃ old r, db.rows.get? i.key = some old ∧ row = i.updated old.createdAt old.updatedAt now ∧
      IssueRow.ofIssue row = .ok r ∧ db'.rows = db.rows.insert row.key r ∧
      db'.changes = db.changes := by
  unfold updateIssue at h
  simp at h
  obtain ⟨old, db₁, hold, h⟩ := h
  obtain ⟨rfl, rfl⟩ := run_row?_eq_ok hold
  split at h <;> simp at h
  case h_2 old hold =>
    obtain ⟨r, hr, ⟨u, hset⟩, rfl⟩ := h
    obtain ⟨hrows, hchanges⟩ := run_setRow_eq_ok hset
    exact ⟨old, r, hold, rfl, hr, hrows, hchanges⟩

end Transaction

theorem inserts_of_run {is rows : List Issue}
    (h : (is.mapM (Transaction.insertIssue now)).run db = .ok (rows, db')) :
    Inserts (.database db) (.database db') now is rows := by
  induction is generalizing db rows with
  | nil =>
    obtain ⟨rfl, rfl⟩ := Prod.mk.inj (run_pure_eq_ok.1 h)
    exact .nil _ _
  | cons i is ih =>
    simp only [List.mapM_cons, run_bind_eq_ok] at h
    obtain ⟨⟨row, db₁⟩, hi, ⟨rows', db₂⟩, his, h⟩ := h
    obtain ⟨rfl, rfl⟩ := Prod.mk.inj (run_pure_eq_ok.1 h)
    exact (Transaction.run_insertIssue_eq_ok hi).cons (ih his)

theorem updates_of_run {user : Login} {diffs : List FieldDiff}
    (h : (Transaction.updateIssueWithChange now i user diffs).run db = .ok (row, db')) :
    Updates (.database db) (.database db') now i row user diffs := by
  unfold Transaction.updateIssueWithChange at h
  simp at h
  obtain ⟨j, db₁, hj, h⟩ := h
  obtain ⟨old, r, hold, rfl, hr, hrows, hchanges⟩ := Transaction.run_updateIssue_eq_ok hj
  have hcell : Store.cell? (.database db) i.key = some (.row old) := by simp [Store.cell?, hold]
  have hf : Logs (.database db) (.database db₁) none := logs_of_changes_eq hchanges
  -- the update has written the row; filing the differences touches no cell
  suffices hlast : row = i.updated old.createdAt old.updatedAt now ∧ db'.rows = db₁.rows ∧
      Logs (.database db₁) (.database db')
        (if diffs.isEmpty then none else some ⟨row.key, user, row.updatedAt, diffs⟩) by
    obtain ⟨rfl, heq, hlogs⟩ := hlast
    refine ⟨by simp [Store.HasRow, hcell], rfl, ?_, ?_, hf.after hlogs⟩
    · rintro c old' hc hshows
      rw [hcell] at hc
      cases hc
      obtain ⟨hcreated, hupdated⟩ := IssueRow.stamps_of_shows hshows
      rw [hcreated, hupdated]
    · exact writes_of_rows_eq hr (heq.trans hrows)
  split_ifs at h with hd <;> simp at h
  · obtain ⟨rfl, rfl⟩ := h
    exact ⟨rfl, rfl, by simpa [hd] using Logs.refl _⟩
  · obtain ⟨⟨u, hfile⟩, rfl⟩ := h
    obtain ⟨heq, hlogs⟩ := Transaction.run_fileChange_eq_ok hfile
    exact ⟨rfl, heq, by simpa [hd] using hlogs⟩

theorem run_of_error {db : Database} {now : Timestamp} {c : StoreCall} {e : DatabaseError}
    (h : (db.run now c).1 = .error e) : (db.run now c).2 = db := by
  cases c with
  | selectByKey | selectAll | selectChanges => rfl
  | insert | update | updateWithChange | insertChange => exact commit_of_error h

end Database

/-! ## In either kind of store -/

namespace Store

variable {s s' : Store} {now : Timestamp}

theorem inserts_of_insert {is rows : List Issue}
    (h : s.perform now (.insert is) = (.ok rows, s')) : s.Inserts s' now is rows := by
  cases s with
  | memory m =>
    obtain ⟨hr, rfl⟩ := Prod.mk.inj h
    exact MemoryStore.inserts_of_insert (Prod.ext hr rfl)
  | database db =>
    obtain ⟨hr, rfl⟩ := Prod.mk.inj h
    exact Database.inserts_of_run (Database.commit_eq_ok (Prod.ext (mapError_eq_ok.1 hr) rfl))

theorem updates_of_updateWithChange {i row : Issue} {user : Login} {diffs : List FieldDiff}
    (h : s.perform now (.updateWithChange i user diffs) = (.ok row, s')) :
    s.Updates s' now i row user diffs := by
  cases s with
  | memory m =>
    obtain ⟨hr, rfl⟩ := Prod.mk.inj h
    exact MemoryStore.updates_of_updateWithChange (Prod.ext hr rfl)
  | database db =>
    obtain ⟨hr, rfl⟩ := Prod.mk.inj h
    exact Database.updates_of_run (Database.commit_eq_ok (Prod.ext (mapError_eq_ok.1 hr) rfl))

/-- A call that fails leaves the store as it was. -/
theorem perform_of_error {c : StoreCall} {e : StoreError}
    (h : (s.perform now c).1 = .error e) : (s.perform now c).2 = s := by
  cases s with
  | memory m => exact congrArg Store.memory (MemoryStore.perform_of_error h)
  | database db =>
    obtain ⟨d, hd, -⟩ := mapError_eq_error.1 h
    exact congrArg Store.database (Database.run_of_error hd)

@[simp]
theorem perform_selectByKey (s : Store) (now : Timestamp) (key : IssueKey) :
    (s.perform now (.selectByKey key)).2 = s := by
  cases s <;> rfl

@[simp]
theorem perform_selectAll (s : Store) (now : Timestamp) : (s.perform now .selectAll).2 = s := by
  cases s <;> rfl

theorem Keyed.perform (h : s.Keyed) (now : Timestamp) (c : StoreCall) :
    (s.perform now c).2.Keyed := by
  cases s with
  | memory m => exact MemoryStore.keyed_perform h now c
  | database db =>
    intro key i hi
    obtain ⟨r, -, hr⟩ := Option.map_eq_some_iff.1 hi
    cases hr

end Store

end Triage
