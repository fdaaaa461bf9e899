import Triage.Proofs.Store.Soundness

/-!
# A row is read as it was written

The row that a successful call has written to a database stays under its key, whatever is called or
opened anew, until the next row is written there.  It is read as the row that the call answered if
that row has no effort, or one that is finite and read as it is written; an effort that is not
finite is read as none.
-/

namespace Triage

namespace Database

variable {db db' : Database} {key : IssueKey} {now : Timestamp} {c : StoreCall} {i row : Issue}

/-- Where the rows are listed, a row is among them just if it is read under its key. -/
theorem mem_loadAll_iff {rows : List Issue} (h : db.loadAll = .ok rows) :
    i ∈ rows ↔ db.load i.key = .ok (some i) := by
  obtain ⟨t, ht, hread, -⟩ := forall₂_of_loadAll_eq_ok h
  constructor
  · intro hi
    obtain ⟨key, -, hkey⟩ := exists_mem_of_forall₂ hread.flip hi
    obtain ⟨_, r, -, -, hpass⟩ := load_eq_ok_some.1 hkey
    rwa [hpass.key_eq]
  · intro hi
    obtain ⟨t', r, ht', hr, -⟩ := load_eq_ok_some.1 hi
    cases ht.symm.trans ht'
    have hkey : i.key ∈ t.keys := KeyMap.mem_keys_iff.2 (by simp [hr])
    obtain ⟨j, hj, hload⟩ := exists_mem_of_forall₂ hread hkey
    cases hi.symm.trans hload
    exact hj

/-- The databases that come of one while no row is written under a key: by calls that write none
there, and by opening it anew unless it is private. -/
inductive Spares (key : IssueKey) (db : Database) : Database → Prop
  | refl : Spares key db db
  | called {db' : Database} (h : Spares key db db') (now : Timestamp) (c : StoreCall)
    (hrows : ∀ a, (db'.perform now c).1 = .ok a → ∀ i ∈ c.rows a, i.key ≠ key) :
    Spares key db (db'.perform now c).2
  | reopened {f f' : Files} {settings : DatabaseSettings} {db' db'' : Database}
    (h : Spares key db db') (hshared : db'.isPrivate = false)
    (hopen : openAt f settings (some db') = .returned (.ok (db'', f'))) : Spares key db db''

theorem Spares.reached (h : Spares key db db') (hdb : db.Reached) : db'.Reached := by
  induction h with
  | refl => exact hdb
  | called _ now c _ ih => exact ih.called now c
  | reopened _ _ hopen ih => exact ih.reopened hopen

/-- A call that writes no row under a key leaves the cell there as it was. -/
theorem cell?_perform (hrows : ∀ a, (db.perform now c).1 = .ok a → ∀ i ∈ c.rows a, i.key ≠ key) :
    (Store.database (db.perform now c).2).cell? key = (Store.database db).cell? key := by
  refine (Store.Deed.effect ⟨.database db, now, c⟩).writes.others key ?_
  rcases hanswer : (db.perform now c).1 with e | a
  · rw [Store.Deed.rows_of_eq_error (d := ⟨.database db, now, c⟩) hanswer]
    simp
  · rw [Store.Deed.rows_of_eq_ok (d := ⟨.database db, now, c⟩) hanswer]
    exact hrows a hanswer

/-- Nothing changes at a key under which no row is written. -/
theorem Spares.cell?_eq (h : Spares key db db') (hdb : db.Reached) :
    (Store.database db').cell? key = (Store.database db).cell? key := by
  induction h with
  | refl => rfl
  | called _ now c hrows ih => exact (cell?_perform hrows).trans ih
  | reopened h hshared hopen ih => rw [(h.reached hdb).eq_of_openAt hshared hopen, ih]

/-- A row that a call of a reached database has written is read as it was written, up to its effort,
as long as no row is written under its key. -/
theorem row_reads_back (hdb : db.Reached) {a : c.Answer} (ha : (db.perform now c).1 = .ok a)
    (hrow : row ∈ c.rows a) (h : Spares row.key (db.perform now c).2 db') (later : Timestamp) :
    (db'.perform later (.selectByKey row.key)).1 = .ok (some row.reread) ∧
      (∃ rows, (db'.perform later .selectAll).1 = .ok rows ∧
        ∀ i, i ∈ rows ∧ i.key = row.key ↔ i = row.reread) ∧
      (row.reread = row ↔ ∀ x ∈ row.effortToFix, x.Exact) ∧
      ∀ x ∈ row.effortToFix, row.reread.effortToFix =
        if x.isFinite then ofJsonText? (jsonText x) else none := by
  have hafter := hdb.called now c
  have hread : (db'.perform later (.selectByKey row.key)).1 = .ok (some row.reread) := by
    have hwritten : (Store.database (db.perform now c).2).Holds row := by
      refine (Store.Deed.effect ⟨.database db, now, c⟩).writes.holds row ?_
      rwa [Store.Deed.rows_of_eq_ok (d := ⟨.database db, now, c⟩) ha]
    exact ((Store.holds_iff_of_cell?_eq (h.cell?_eq hafter)).2 hwritten).perform_selectByKey later
  obtain ⟨rows, hrows⟩ := (sound_of_reached (h.reached hafter)).2 later .selectAll rfl
  refine ⟨hread, ⟨rows, hrows, fun i => ?_⟩, Issue.reread_eq_self_iff, fun x hx => ?_⟩
  · rw [mem_loadAll_iff (mapError_eq_ok.1 hrows)]
    constructor
    · rintro ⟨hi, hkey⟩
      rw [hkey, mapError_eq_ok.1 hread] at hi
      cases hi
      rfl
    · rintro rfl
      exact ⟨mapError_eq_ok.1 hread, rfl⟩
  · split_ifs with hfinite
    · exact Issue.effortToFix_reread_of_finite hx hfinite
    · exact Issue.effortToFix_reread_of_not_finite hx (by simpa using hfinite)

/-- An issue whose effort is not a number, as a new row. -/
def unmeasured : Issue :=
  let fresh := Issue.fresh ⟨"ABCD"⟩ ⟨"repo:rule"⟩ ⟨⟨"app:a.c"⟩, ⟨"c1"⟩, ⟨"p1"⟩⟩
  { fresh with createdAt := ⟨1000⟩, updatedAt := ⟨1000⟩, effortToFix := some ⟨0x7ff8000000000000⟩ }

theorem row_reads_back_sample : Store.sampleDatabase.Reached ∧
    (Store.sampleDatabase.perform ⟨1000⟩ (.insert [unmeasured])).1 = .ok [unmeasured] ∧
      ((Store.sampleDatabase.perform ⟨1000⟩ (.insert [unmeasured])).2.perform ⟨1000⟩
        (.selectByKey unmeasured.key)).1 = .ok (some unmeasured.reread) ∧
      unmeasured.reread.effortToFix = none ∧ unmeasured.reread ≠ unmeasured := by
  obtain ⟨f', hopen⟩ := exists_openAt_sampleDatabase
  have hreached : Store.sampleDatabase.Reached := .opened hopen
  have hanswer : (Store.sampleDatabase.perform ⟨1000⟩ (.insert [unmeasured])).1 =
      .ok [unmeasured] := by decide +kernel
  obtain ⟨hread, -, hself, heffort⟩ := row_reads_back hreached hanswer
    (List.mem_singleton_self unmeasured) .refl ⟨1000⟩
  have hnone : unmeasured.reread.effortToFix = none := (heffort _ rfl).trans (if_neg (by decide))
  exact ⟨hreached, hanswer, hread, hnone, fun h => by
    have hexact := hself.1 h _ rfl
    exact absurd hexact.isFinite (by decide)⟩

end Database

end Triage
