import Triage.Proofs.Decimal.Readable
import Triage.Proofs.Store.Checks
import Triage.Proofs.Store.Refinement

/-!
# What was written can be read

A row that a store has written is read back as the issue that it holds, up to an effort whose digits
stand for another number, and a changelog as the entries that were filed.  For a changelog to be
read its table has to be there; a store that has it never loses it, as it keeps all that survives
the two writes that transactions are made of.
-/

namespace Triage

/-! ## Rows -/

theorem IssueRow.of_ofIssue_eq_ok {i : Issue} {r : IssueRow} (h : ofIssue i = .ok r) :
    r = of i ∧ (jsonText i).toUTF8.size ≤ maxPayloadBytes := by
  unfold ofIssue at h
  obtain ⟨bytes, hbytes, h⟩ := bind_eq_ok.1 h
  obtain ⟨rfl, hsize⟩ := Payload.of_encode_eq_ok hbytes
  exact ⟨(pure_eq_ok.1 h).symm, hsize⟩

/-- A row is read as the issue that it holds, up to the effort. -/
theorem Cell.Holds.exists_read {c : Cell} {i : Issue} (h : c.Holds i) :
    ∃ effort, c.read i.key = .ok { i with effortToFix := effort } := by
  cases c with
  | issue j => exact ⟨i.effortToFix, congrArg Except.ok h⟩
  | row r =>
    obtain ⟨effort, heffort⟩ := exists_readsAs_effort i.effortToFix
    obtain ⟨rfl, hsize⟩ := IssueRow.of_ofIssue_eq_ok h
    have hdecode := Payload.decode_eq hsize (readsAs_issue heffort).ofJsonText?
    refine ⟨effort, mapError_eq_ok.2 (bind_eq_ok.2 ⟨_, IssueRow.bytes?_of i, ?_⟩)⟩
    exact IssueRow.decode_of_eq_of_read hdecode rfl rfl rfl

/-! ## Entries -/

theorem ChangeRow.read_of_holds {r : ChangeRow} {c : IssueChange} {key : IssueKey}
    (h : r.issueKey = key ∧ (Entry.row r).Holds c) :
    decode key (jsonText c).toUTF8 = .ok c ∧ r.bytes? = .ok (jsonText c).toUTF8 := by
  obtain ⟨rfl, hkey, -, bytes, hbytes, hpayload⟩ := h
  obtain ⟨rfl, hsize⟩ := Payload.of_encode_eq_ok hbytes
  constructor
  · rw [hkey]
    exact decode_eq (Payload.keeps_change hsize)
  · rw [bytes?, hpayload]
    rfl

/-! ## Tables -/

namespace Database

variable {α β : Type} {P : Database → Prop}

/-- Whether a property of databases survives the two writes that transactions are made of: a row
that is set, and an entry that is filed under the next number. -/
structure Survives (P : Database → Prop) : Prop where
  setRow : ∀ db t key row, db.issues = some t → P db →
    P { db with issues := some (t.insert key row) }
  fileChange : ∀ db t key stamp payload, db.changes = some t → P db →
    P { db with changes := some (t.file key stamp payload) }

/-- Whether the transaction leaves a property of the database in place. -/
def Transaction.Keeps (P : Database → Prop) (t : Transaction α) : Prop :=
  ∀ db a db', t.run db = .ok (a, db') → P db → P db'

namespace Transaction

theorem keeps_bind {t : Transaction α} {f : α → Transaction β} (ht : t.Keeps P)
    (hf : ∀ a, (f a).Keeps P) : (t >>= f).Keeps P := by
  intro db b db' h hdb
  obtain ⟨⟨a, db₁⟩, ha, hb⟩ := run_bind_eq_ok.1 h
  exact hf a db₁ b db' hb (ht db a db₁ ha hdb)

theorem keeps_pure (a : α) : (pure a : Transaction α).Keeps P := by
  intro db b db' h hdb
  obtain ⟨-, rfl⟩ := Prod.mk.inj (run_pure_eq_ok.1 h)
  exact hdb

theorem keeps_throw (e : DatabaseError) : (throw e : Transaction α).Keeps P :=
  fun _ _ _ h => absurd h run_throw_ne_ok

theorem keeps_liftM (x : Except DatabaseError α) : (liftM x : Transaction α).Keeps P := by
  intro db a db' h hdb
  have hrun : (x >>= fun a => pure (a, db)) = .ok (a, db') := h
  obtain ⟨b, -, hb⟩ := bind_eq_ok.1 hrun
  obtain ⟨-, rfl⟩ := Prod.mk.inj (pure_eq_ok.1 hb)
  exact hdb

theorem keeps_mapM {t : α → Transaction β} (ht : ∀ a, (t a).Keeps P) (as : List α) :
    (as.mapM t).Keeps P := by
  induction as with
  | nil => exact keeps_pure []
  | cons a as ih =>
    rw [List.mapM_cons]
    exact keeps_bind (ht a) fun b => keeps_bind ih fun bs => keeps_pure _

theorem keeps_row? (key : IssueKey) : (row? key).Keeps P := by
  intro db r db' h hdb
  rwa [(run_row?_eq_ok h).2]

theorem keeps_setRow (hP : Survives P) (key : IssueKey) (r : IssueRow) :
    (setRow key r).Keeps P := by
  intro db u db' h hdb
  unfold setRow at h
  simp at h
  obtain ⟨t, ht, rfl⟩ := h
  exact hP.setRow db t key r (issueTable_eq_ok.1 ht) hdb

theorem keeps_fileChange (hP : Survives P) (c : IssueChange) : (fileChange c).Keeps P := by
  intro db u db' h hdb
  unfold fileChange at h
  simp at h
  obtain ⟨bytes, -, t, ht, rfl⟩ := h
  exact hP.fileChange db t _ _ _ (changeTable_eq_ok.1 ht) hdb

theorem keeps_insertIssue (hP : Survives P) (now : Timestamp) (i : Issue) :
    (insertIssue now i).Keeps P := by
  refine keeps_bind (keeps_row? _) fun old => ?_
  have hstore : (do
      let i := i.inserted now
      setRow i.key (← liftM (IssueRow.ofIssue i))
      return i : Transaction Issue).Keeps P :=
    keeps_bind (keeps_liftM _) fun r => keeps_bind (keeps_setRow hP _ r) fun _ => keeps_pure _
  split_ifs
  · exact keeps_bind (keeps_throw _) fun _ => hstore
  · exact hstore

theorem keeps_updateIssue (hP : Survives P) (now : Timestamp) (i : Issue) :
    (updateIssue now i).Keeps P := by
  refine keeps_bind (keeps_row? _) fun old => ?_
  cases old with
  | none => exact keeps_throw _
  | some old =>
    refine keeps_bind (keeps_liftM _) fun r => ?_
    exact keeps_bind (keeps_setRow hP _ _) fun _ => keeps_pure _

theorem keeps_updateIssueWithChange (hP : Survives P) (now : Timestamp) (i : Issue) (user : Login)
    (diffs : List FieldDiff) : (updateIssueWithChange now i user diffs).Keeps P := by
  refine keeps_bind (keeps_updateIssue hP now i) fun row => ?_
  split_ifs
  · exact keeps_pure row
  · exact keeps_bind (keeps_fileChange hP _) fun _ => keeps_pure row

theorem keeps_insertChange (hP : Survives P) (c : IssueChange) : (insertChange c).Keeps P := by
  refine keeps_bind (keeps_row? _) fun old => ?_
  split_ifs
  · exact keeps_bind (keeps_throw _) fun _ => keeps_fileChange hP c
  · exact keeps_fileChange hP c

theorem Keeps.commit {t : Transaction α} (ht : t.Keeps P) {db : Database} (hdb : P db) :
    P (db.commit t).2 := by
  unfold Database.commit
  rcases h : t.run db with e | ⟨a, db'⟩
  · exact hdb
  · exact ht db a db' h hdb

end Transaction

/-- What survives the writes survives every call. -/
theorem Survives.run (hP : Survives P) {db : Database} (h : P db) (now : Timestamp)
    (c : StoreCall) : P (db.run now c).2 := by
  cases c with
  | selectByKey | selectAll | selectChanges => exact h
  | insert is => exact (Transaction.keeps_mapM (Transaction.keeps_insertIssue hP now) is).commit h
  | update i => exact (Transaction.keeps_updateIssue hP now i).commit h
  | updateWithChange i user diffs =>
    exact (Transaction.keeps_updateIssueWithChange hP now i user diffs).commit h
  | insertChange c => exact (Transaction.keeps_insertChange hP c).commit h

/-- Whether there is a table of issues. -/
def HasIssues (db : Database) : Prop := db.issues.isSome = true

/-- Whether there is a table of changelogs. -/
def HasChanges (db : Database) : Prop := db.changes.isSome = true

theorem survives_hasIssues : Survives HasIssues where
  setRow _ _ _ _ _ _ := rfl
  fileChange _ _ _ _ _ _ h := h

theorem survives_hasChanges : Survives HasChanges where
  setRow _ _ _ _ _ h := h
  fileChange _ _ _ _ _ _ _ := rfl

end Database

namespace Store

/-- Whether the store has a place for changelogs. -/
def HasChanges : Store → Prop
  | .memory _ => True
  | .database db => db.HasChanges

variable {s : Store} {key : IssueKey} {now : Timestamp} {i : Issue}

theorem HasChanges.perform (h : s.HasChanges) (now : Timestamp) (c : StoreCall) :
    (s.perform now c).2.HasChanges := by
  cases s with
  | memory m => trivial
  | database db => exact Database.survives_hasChanges.run h now c

/-! ## Reading -/

/-- A row is read as the issue that it holds, up to the effort. -/
theorem Holds.exists_selectByKey (h : s.Holds i) (now : Timestamp) : ∃ effort,
    (s.perform now (.selectByKey i.key)).1 = .ok (some { i with effortToFix := effort }) := by
  obtain ⟨c, hc, hi⟩ := h
  obtain ⟨effort, hread⟩ := hi.exists_read
  exact ⟨effort, selectByKey_of_cell? hc hread⟩

/-- A changelog is read as the entries that were filed. -/
theorem selectChanges_of_holds (hs : s.HasChanges) {log : List IssueChange}
    (h : List.Forall₂ Entry.Holds (s.entries key) log) :
    (s.perform now (.selectChanges key)).1 = .ok log := by
  cases s with
  | memory m =>
    have hentries : List.Forall₂ (fun d c => (Entry.change d).Holds c) (m.changelog key) log :=
      List.forall₂_map_left_iff.1 h
    have heq : List.Forall₂ (· = ·) (m.changelog key) log := hentries.imp fun _ _ hdc => hdc
    rw [List.forall₂_eq_eq_eq] at heq
    exact congrArg Except.ok heq
  | database db =>
    obtain ⟨t, ht⟩ := Option.isSome_iff_exists.1 hs
    have htable : db.changeTable = .ok t := by rw [Database.changeTable, ht]
    have hrows : List.Forall₂ (fun r c => (Entry.row r).Holds c) (t.filedUnder key) log := by
      rw [entries_of_changes ht] at h
      exact List.forall₂_map_left_iff.1 h
    have hkeys : ∀ r ∈ t.filedUnder key, r.issueKey = key := fun _ hr =>
      (ChangeTable.mem_filedUnder.1 hr).2
    have hread := ((List.forall₂_and_left _ _).2 ⟨hkeys, hrows⟩).imp
      fun _ _ => ChangeRow.read_of_holds
    have hbytes : (t.filedUnder key).mapM ChangeRow.bytes? =
        .ok (log.map fun c => (jsonText c).toUTF8) :=
      mapM_eq_ok.2 (List.forall₂_map_right_iff.2 (hread.imp fun _ _ hrc => hrc.2))
    have hdecode : (log.map fun c => (jsonText c).toUTF8).mapM (ChangeRow.decode key) = .ok log :=
      mapM_eq_ok.2 (List.forall₂_map_left_iff.2
        (List.forall₂_same.2 ((List.forall₂_and_left _ _).1 hread.flip).1))
    refine mapError_eq_ok.2 (bind_eq_ok.2 ⟨t, htable, bind_eq_ok.2 ⟨_, hbytes, hdecode⟩⟩)

/-! ## Fresh stores -/

/-- The stores that a service can start with: an empty one in memory, and a database as it is
opened where none was. -/
inductive Fresh : Store → Prop
  | memory : Fresh (.memory {})
  | database {f f' : Files} {settings : DatabaseSettings} {db : Database}
    (h : Database.openAt f settings = .returned (.ok (db, f'))) : Fresh (.database db)

theorem Fresh.cell?_eq (h : s.Fresh) (key : IssueKey) : s.cell? key = none := by
  cases h with
  | memory => rfl
  | database h =>
    obtain ⟨isPrivate, hdb⟩ := Database.reopened_of_openAt h
    have hissues := (Database.mirrors_of_reopened hdb).issues
    rw [cell?, Database.rows, hissues]
    rfl

theorem Fresh.entries_eq (h : s.Fresh) (key : IssueKey) : s.entries key = [] := by
  cases h with
  | memory => rfl
  | database h =>
    obtain ⟨isPrivate, hdb⟩ := Database.reopened_of_openAt h
    obtain ⟨t, ht, hrows⟩ := (Database.mirrors_of_reopened hdb).changes
    have hnil : t.filedUnder key = [] := List.map_eq_nil_iff.1 (hrows key)
    rw [entries_of_changes ht, hnil]
    rfl

theorem Fresh.hasChanges (h : s.Fresh) : s.HasChanges := by
  cases h with
  | memory => trivial
  | database h =>
    obtain ⟨isPrivate, hdb⟩ := Database.reopened_of_openAt h
    obtain ⟨t, ht, -⟩ := (Database.mirrors_of_reopened hdb).changes
    exact Option.isSome_iff_exists.2 ⟨t, ht⟩

end Store

end Triage
