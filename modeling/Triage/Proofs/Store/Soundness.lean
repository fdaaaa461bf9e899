import Triage.Proofs.Store.Reread
import Triage.Store.Edit

/-!
# Databases that stores have written

What a store makes of a new database, by calls that succeed or fail and by opening it anew, is
sound: its tables are there, and every row in them passes its checks.  So no reading call fails
there.
-/

namespace Triage

/-! ## The order of the entries -/

/-- Whether the rows stand in the order of their numbers, which are counted from one. -/
structure ChangeTable.Ordered (t : ChangeTable) : Prop where
  sorted : t.rows.Pairwise (·.number < ·.number)
  counted : ∀ r ∈ t.rows, (r.id : Int) = r.number ∧ 0 < r.id ∧ r.id ≤ t.lastId

theorem ChangeTable.ordered_empty : (∅ : ChangeTable).Ordered := ⟨.nil, nofun⟩

theorem ChangeTable.Ordered.file {t : ChangeTable} (h : t.Ordered) (key : IssueKey)
    (stamp : Timestamp) (payload : Payload) : (t.file key stamp payload).Ordered where
  sorted := by
    refine List.pairwise_append.2 ⟨h.sorted, List.pairwise_singleton _ _, fun r hr r' hr' => ?_⟩
    rw [List.mem_singleton.1 hr']
    exact Int.lt_add_one_of_le (t.le_lastId r hr)
  counted := by
    intro r hr
    rcases List.mem_append.1 hr with hr | hr
    · obtain ⟨hid, hpos, hle⟩ := h.counted r hr
      exact ⟨hid, hpos, hle.trans (Nat.le_succ _)⟩
    · rw [List.mem_singleton.1 hr]
      exact ⟨rfl, Nat.succ_pos _, le_rfl⟩

namespace Database

variable {db db' : Database} {key : IssueKey}

theorem survives_ordered : Survives fun db => ∃ t, db.changes = some t ∧ t.Ordered where
  setRow _ _ _ _ _ h := h
  fileChange db t key stamp payload ht h := by
    obtain ⟨t', ht', hordered⟩ := h
    cases ht.symm.trans ht'
    exact ⟨_, rfl, hordered.file key stamp payload⟩

/-! ## Reached databases -/

/-- The databases that come of a new one by calls and by opening it anew. -/
inductive Reached : Database → Prop
  | opened {f f' : Files} {settings : DatabaseSettings} {db : Database}
    (h : openAt f settings = .returned (.ok (db, f'))) : Reached db
  | called {db : Database} (hdb : Reached db) (now : Timestamp) (c : StoreCall) :
    Reached (db.perform now c).2
  | reopened {f f' : Files} {settings : DatabaseSettings} {db db' : Database} (hdb : Reached db)
    (h : openAt f settings (some db) = .returned (.ok (db', f'))) : Reached db'

/-- Whether the tables are there and every row in them passes its checks: an issue agrees with its
columns, and an entry belongs to the issue that it is filed under, which has a row. -/
structure Sound (db : Database) : Prop where
  issues : ∃ t, db.issues = some t ∧ ∀ key r, t.get? key = some r → ∃ i, r.Passes key i
  changes : ∃ t, db.changes = some t ∧ t.Ordered ∧ ∀ r ∈ t.rows,
    (∃ c, r.Passes r.issueKey c) ∧ ∃ row, db.rows.get? r.issueKey = some row

/-- Whether the database has this version's tables, the entries in order, and deeds account for what
lies in them. -/
structure Accounted (db : Database) (ds : List Store.Deed) : Prop where
  accountedBy : (Store.database db).AccountedBy ds
  versions : db.versions = [layoutVersion]
  hasIssues : db.HasIssues
  changes : ∃ t, db.changes = some t ∧ t.Ordered

variable {ds : List Store.Deed}

theorem survives_versions (vs : List Int64) : Survives fun db => db.versions = vs :=
  ⟨fun _ _ _ _ _ h => h, fun _ _ _ _ _ _ h => h⟩

theorem survives_isPrivate (b : Bool) : Survives fun db => db.isPrivate = b :=
  ⟨fun _ _ _ _ _ h => h, fun _ _ _ _ _ _ h => h⟩

theorem Accounted.hasChanges (h : db.Accounted ds) : db.HasChanges := by
  obtain ⟨t, ht, -⟩ := h.changes
  exact Option.isSome_iff_exists.2 ⟨t, ht⟩

theorem Accounted.perform (h : db.Accounted ds) (now : Timestamp) (c : StoreCall) :
    (db.perform now c).2.Accounted (ds ++ [⟨.database db, now, c⟩]) where
  accountedBy := Store.AccountedBy.step (d := ⟨.database db, now, c⟩) h.accountedBy
  versions := (survives_versions _).run h.versions now c
  hasIssues := survives_hasIssues.run h.hasIssues now c
  changes := survives_ordered.run h.changes now c

/-- A database without tables is opened with empty ones. -/
theorem accounted_of_opened_empty (isPrivate : Bool)
    (h : ({ isPrivate := isPrivate } : Database).opened = .ok db) : db.Accounted [] := by
  obtain rfl := Except.ok.inj h
  exact ⟨.nil (fun _ => rfl) fun key => by
    rw [Store.entries_of_changes rfl, Option.getD_none, ChangeTable.filedUnder_empty, List.map_nil],
    rfl, rfl, _, rfl, ChangeTable.ordered_empty⟩

theorem Accounted.opened_eq (h : db.Accounted ds) : db.opened = .ok db := by
  rw [opened, h.versions]
  exact if_pos rfl

/-- The content of a reached database is told by deeds: those since it was last opened if it is
private, and all of them if it is not. -/
theorem Reached.exists_accounted (h : db.Reached) : ∃ ds, db.Accounted ds := by
  induction h with
  | opened h =>
    obtain ⟨isPrivate, hdb⟩ := reopened_of_openAt h
    refine ⟨[], accounted_of_opened_empty isPrivate ?_⟩
    cases isPrivate <;> exact hdb
  | called _ now c ih =>
    obtain ⟨ds, hds⟩ := ih
    exact ⟨_, hds.perform now c⟩
  | @reopened f f' settings db db' _ h ih =>
    obtain ⟨ds, hds⟩ := ih
    obtain ⟨-, hdb : db.elsewhere.opened = .ok db'⟩ := reopened_of_openAt h
    -- a private database is opened anew without its tables, any other one as it is
    unfold elsewhere at hdb
    split_ifs at hdb
    · exact ⟨[], accounted_of_opened_empty true hdb⟩
    · obtain rfl := Except.ok.inj (hds.opened_eq.symm.trans hdb)
      exact ⟨ds, hds⟩

theorem Accounted.sound (h : db.Accounted ds) : db.Sound where
  issues := by
    obtain ⟨t, ht⟩ := Option.isSome_iff_exists.1 h.hasIssues
    refine ⟨t, ht, fun key r hr => ?_⟩
    obtain ⟨i, -, hi⟩ := h.accountedBy.passes (rows_of_issues ht ▸ hr)
    exact ⟨i.reread, hi⟩
  changes := by
    obtain ⟨t, ht, hordered⟩ := h.changes
    refine ⟨t, ht, hordered, fun r hr => ?_⟩
    have hfiled : Entry.row r ∈ (Store.database db).entries r.issueKey := by
      rw [Store.entries_of_changes ht]
      exact List.mem_map_of_mem (ChangeTable.mem_filedUnder.2 ⟨hr, rfl⟩)
    constructor
    · obtain ⟨c, hc⟩ := exists_forall₂_iff.1 ⟨_, h.accountedBy.entries r.issueKey⟩ _ hfiled
      obtain ⟨hdecode, hbytes⟩ := ChangeRow.read_of_holds ⟨rfl, hc⟩
      exact ⟨c, ChangeRow.passes_iff.2 ⟨_, hbytes, hdecode⟩⟩
    · have hrow := h.accountedBy.hasRow r.issueKey (List.ne_nil_of_mem hfiled)
      obtain ⟨c, hc⟩ := Option.isSome_iff_exists.1 hrow
      obtain ⟨row, hrow, -⟩ := Option.map_eq_some_iff.1 hc
      exact ⟨row, hrow⟩

theorem Accounted.exists_answer (h : db.Accounted ds) (now : Timestamp) {c : StoreCall}
    (hc : c.isReading = true) : ∃ a, (db.perform now c).1 = .ok a := by
  have hanswers := h.accountedBy.answers_database h.hasIssues h.hasChanges now
  cases c with
  | selectByKey key => exact ⟨_, hanswers.selectByKey key⟩
  | selectAll => exact ⟨_, hanswers.selectAll⟩
  | selectChanges key => exact ⟨_, hanswers.selectChanges key⟩
  | insert | update | updateWithChange | insertChange => cases hc

/-! ## Opening anew -/

/-- A site where one database can be prepared takes any other. -/
theorem prepare_some {s : DatabaseSite} {f : Files} {mode : JournalMode} {held : Option Database}
    {made : Database} (h : s.prepare f mode held = .ok made) (db : Database) :
    s.prepare f mode (some db) = db.reopened := by
  unfold DatabaseSite.prepare at h ⊢
  obtain ⟨u, hwrite, h⟩ := bind_eq_ok.1 h
  rw [hwrite, ok_bind]
  split_ifs at h ⊢
  · exact absurd h (by rintro ⟨⟩)
  · rfl

/-- Where one database can be opened, what becomes of another lies with its content only. -/
theorem openAt_held {f f' : Files} {settings : DatabaseSettings} {held : Option Database}
    {made : Database} (h : openAt f settings held = .returned (.ok (made, f'))) (db : Database) :
    openAt f settings (some db) = .returned (db.reopened.map fun db' => (db', f')) := by
  unfold openAt at h ⊢
  split at h
  case h_1 => cases h
  case h_2 s f₁ _ =>
    split_ifs at h ⊢
    rcases hprepare : s.prepare f₁ settings.journalMode held with e | made'
    · simp [hprepare, Except.map] at h
    · rw [prepare_some hprepare]
      simp [hprepare, Except.map] at h
      rw [h.2]

/-- Where a new database can be opened, one that another connection holds can. -/
theorem openAt_some {f f' : Files} {settings : DatabaseSettings} {made : Database}
    (h : openAt f settings = .returned (.ok (made, f'))) (hdb : db.reopened = .ok db') :
    openAt f settings (some db) = .returned (.ok (db', f')) := by
  rw [openAt_held h, hdb]
  rfl

/-- A reached database that others can see is opened anew as it is. -/
theorem Reached.reopened_eq (h : db.Reached) (hshared : db.isPrivate = false) :
    db.reopened = .ok db := by
  obtain ⟨ds, hds⟩ := h.exists_accounted
  rw [Database.reopened, elsewhere, hshared]
  exact hds.opened_eq

theorem Reached.eq_of_openAt (h : db.Reached) (hshared : db.isPrivate = false) {f f' : Files}
    {settings : DatabaseSettings}
    (hopen : openAt f settings (some db) = .returned (.ok (db', f'))) : db' = db := by
  obtain ⟨-, hdb : db.reopened = .ok db'⟩ := reopened_of_openAt hopen
  exact Except.ok.inj (hdb.symm.trans (h.reopened_eq hshared))

/-! ## Soundness -/

theorem Reached.calls (h : db.Reached) (calls : List (Timestamp × StoreCall)) :
    (calls.foldl (fun db call => (db.perform call.1 call.2).2) db).Reached := by
  induction calls generalizing db with
  | nil => exact h
  | cons call calls ih => exact ih (h.called call.1 call.2)

theorem Survives.calls {P : Database → Prop} (hP : Survives P) (h : P db)
    (calls : List (Timestamp × StoreCall)) :
    P (calls.foldl (fun db call => (db.perform call.1 call.2).2) db) := by
  induction calls generalizing db with
  | nil => exact h
  | cons call calls ih => exact ih (hP.run h call.1 call.2)

theorem exists_openAt_sampleDatabase : ∃ f', openAt .empty { path := "issues.db" } =
    .returned (.ok (Store.sampleDatabase, f')) :=
  exists_openAt (by decide +kernel)

/-- The database that the sample calls leave behind, one of which fails. -/
def sampleLeft : Database :=
  Store.sampleCalls.foldl (fun db call => (db.perform call.1 call.2).2) Store.sampleDatabase

theorem reached_sampleLeft : sampleLeft.Reached := by
  obtain ⟨f', hopen⟩ := exists_openAt_sampleDatabase
  exact (Reached.opened hopen).calls Store.sampleCalls

theorem isPrivate_sampleLeft : sampleLeft.isPrivate = false :=
  (survives_isPrivate false).calls rfl Store.sampleCalls

/-- A database that stores have made of a new one is sound, and no reading call fails on it. -/
theorem sound_of_reached (h : db.Reached) :
    db.Sound ∧ ∀ (now : Timestamp) (c : StoreCall), c.isReading = true →
      ∃ a, (db.perform now c).1 = .ok a := by
  obtain ⟨ds, hds⟩ := h.exists_accounted
  exact ⟨hds.sound, fun now _ hc => hds.exists_answer now hc⟩

theorem sound_of_reached_sample : ∃ f', openAt .empty { path := "issues.db" } (some sampleLeft) =
    .returned (.ok (sampleLeft, f')) ∧ sampleLeft.Reached ∧ sampleLeft.Sound ∧
      ∀ (now : Timestamp) (c : StoreCall), c.isReading = true →
        ∃ a, (sampleLeft.perform now c).1 = .ok a := by
  obtain ⟨f', hopen⟩ := exists_openAt_sampleDatabase
  have hagain := openAt_some hopen (reached_sampleLeft.reopened_eq isPrivate_sampleLeft)
  have hreached : sampleLeft.Reached := reached_sampleLeft.reopened hagain
  exact ⟨f', hagain, hreached, sound_of_reached hreached⟩

end Database

end Triage
