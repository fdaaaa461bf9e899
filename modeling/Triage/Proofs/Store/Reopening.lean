import Triage.Proofs.Store.Soundness

/-!
# Opening a database anew

A store opens its database in one transaction.  One of this version is left as it is, one without a
version becomes this version's and gets the tables that it lacks, and one of any other version is
refused and keeps what it holds.  So a store that is opened anew between its calls answers as one
that is not.
-/

namespace Triage.Database

/-! ## The transaction -/

namespace Transaction

/-- Makes the tables that are missing. -/
def makeTables : Transaction Unit := do
  modify fun db => { db with issues := some (db.issues.getD ∅) }
  modify fun db => { db with changes := some (db.changes.getD {}) }

/-- Reads the first version, which is set if there is none, before the tables are made. -/
def openTables : Transaction Unit := do
  match (← get).versions.head? with
  | none =>
    modify fun db => { db with versions := [layoutVersion] }
    makeTables
  | some v =>
    unless v = layoutVersion do
      throw (.versionMismatch ("unsupported schema version: " ++ toString v.toInt))

end Transaction

variable {db file left made : Database} {f f' : Files} {settings : DatabaseSettings}
  {held : Option Database}

/-- Opening a database is to run the transaction on it and to keep what it holds if that fails. -/
theorem commit_openTables (db : Database) :
    db.commit Transaction.openTables =
      match db.opened with
      | .ok left => (.ok (), left)
      | .error e => (.error e, db) := by
  obtain ⟨isPrivate, versions, issues, changes⟩ := db
  cases versions with
  | nil => rfl
  | cons v vs =>
    by_cases hv : v = layoutVersion
    · subst hv
      rfl
    · simp [commit, Transaction.openTables, opened, hv]
      rfl

/-- What opening a file comes to and what it leaves, by the first version that the file holds:
nothing is changed unless there is none, and then only what is missing is made. -/
structure OpensSafely (file : Database) (result : Except DatabaseError Unit) (left : Database) :
    Prop where
  current : file.versions.head? = some layoutVersion → result = .ok () ∧ left = file
  unversioned : file.versions = [] → result = .ok () ∧ left = { file with
    versions := [layoutVersion]
    issues := some (file.issues.getD ∅)
    changes := some (file.changes.getD {}) }
  foreign : ∀ v, file.versions.head? = some v → v ≠ layoutVersion →
    result = .error (.versionMismatch ("unsupported schema version: " ++ toString v.toInt)) ∧
      left = file

theorem opensSafely (file : Database) : file.OpensSafely
    (file.commit Transaction.openTables).1 (file.commit Transaction.openTables).2 := by
  rw [commit_openTables, opened]
  refine ⟨fun hcurrent => ?_, fun hnone => ?_, fun v hfirst hv => ?_⟩
  · obtain ⟨vs, hvs⟩ := List.head?_eq_some_iff.1 hcurrent
    simp [hvs]
  · simp [hnone]
  · obtain ⟨vs, hvs⟩ := List.head?_eq_some_iff.1 hfirst
    simp [hvs, hv]

theorem reopened_eq_opened (h : file.isPrivate = false) : file.reopened = file.opened := by
  rw [reopened, elsewhere, h, if_neg Bool.false_ne_true]

/-- A file that can be reached is opened as the transaction leaves it, or refused as the transaction
fails. -/
theorem openAt_eq_commit (hopen : openAt f settings held = .returned (.ok (made, f')))
    (hfile : file.isPrivate = false) :
    openAt f settings (some file) = .returned ((file.commit Transaction.openTables).1.map
      fun _ => ((file.commit Transaction.openTables).2, f')) := by
  rw [openAt_held hopen, reopened_eq_opened hfile, commit_openTables]
  rcases file.opened with e | left <;> rfl

/-! ## Current databases -/

/-- Whether the database holds this version first and lies where every connection sees it. -/
structure IsCurrent (db : Database) : Prop where
  versions : db.versions.head? = some layoutVersion
  isPrivate : db.isPrivate = false

theorem head?_versions_of_opened (h : file.opened = .ok db) :
    db.versions.head? = some layoutVersion := by
  unfold opened at h
  split at h
  · cases h
    rfl
  · split_ifs at h with hv
    cases h
    simp_all

theorem isCurrent_of_openAt (h : openAt f settings held = .returned (.ok (db, f')))
    (hshared : db.isPrivate = false) : db.IsCurrent := by
  obtain ⟨isPrivate, hopened⟩ := reopened_of_openAt h
  exact ⟨head?_versions_of_opened hopened, hshared⟩

theorem IsCurrent.perform (h : db.IsCurrent) (now : Timestamp) (c : StoreCall) :
    (db.perform now c).2.IsCurrent where
  versions := by
    have hsame : (db.perform now c).2.versions = db.versions :=
      (survives_versions db.versions).run rfl now c
    rw [hsame, h.versions]
  isPrivate := (survives_isPrivate false).run h.isPrivate now c

theorem IsCurrent.reopened_eq (h : db.IsCurrent) : db.reopened = .ok db := by
  obtain ⟨vs, hvs⟩ := List.head?_eq_some_iff.1 h.versions
  rw [reopened_eq_opened h.isPrivate, opened, hvs]
  exact if_pos rfl

/-! ## Accesses -/

/-- What is done with a store on a database: a call, or opening it anew among the files of that
time. -/
inductive Access
  | call (now : Timestamp) (c : StoreCall)
  | reopen (f : Files)

/-- Whether the access is a call. -/
def Access.isCall : Access → Bool
  | .call _ _ => true
  | .reopen _ => false

/-- The database that a store uses once it is opened anew.  It goes on with the one it has used if
that fails. -/
def next (db : Database) (settings : DatabaseSettings) (f : Files) : Database :=
  match openAt f settings (some db) with
  | .returned (.ok (db', _)) => db'
  | _ => db

/-- The answers to the calls among the accesses, and the database that is left. -/
def attend (db : Database) (settings : DatabaseSettings) :
    List Access → List ((c : StoreCall) × Except StoreError c.Answer) × Database
  | [] => ([], db)
  | .call now c :: accesses =>
    let rest := (db.perform now c).2.attend settings accesses
    (⟨c, (db.perform now c).1⟩ :: rest.1, rest.2)
  | .reopen f :: accesses => (db.next settings f).attend settings accesses

theorem IsCurrent.next_eq (h : db.IsCurrent) (settings : DatabaseSettings) (f : Files) :
    db.next settings f = db := by
  unfold next
  split
  case h_1 db' f' hopen =>
    obtain ⟨-, hopened : db.reopened = .ok db'⟩ := reopened_of_openAt hopen
    exact Except.ok.inj (hopened.symm.trans h.reopened_eq)
  case h_2 => rfl

/-- The accesses come to the calls among them. -/
theorem IsCurrent.attend_eq (h : db.IsCurrent) (settings : DatabaseSettings)
    (accesses : List Access) :
    db.attend settings accesses = db.attend settings (accesses.filter Access.isCall) := by
  induction accesses generalizing db with
  | nil => rfl
  | cons access accesses ih =>
    cases access with
    | call now c =>
      rw [List.filter_cons_of_pos rfl, attend, attend, ih (h.perform now c)]
    | reopen f =>
      rw [List.filter_cons_of_neg (by simp [Access.isCall]), attend, h.next_eq, ih h]

theorem IsCurrent.attend (h : db.IsCurrent) (settings : DatabaseSettings)
    (accesses : List Access) : (db.attend settings accesses).2.IsCurrent := by
  induction accesses generalizing db with
  | nil => exact h
  | cons access accesses ih =>
    cases access with
    | call now c => exact ih (h.perform now c)
    | reopen f =>
      rw [Database.attend, h.next_eq]
      exact ih h

/-- A store on a file answers alike wherever it is opened anew, which gives what it has where its
path can be opened at all.  Every file that there may be at the path is opened by one transaction,
which leaves the rows and the changelogs that it holds. -/
theorem reopening_is_transparent (hopen : openAt f settings held = .returned (.ok (db, f')))
    (hshared : db.isPrivate = false) :
    (∀ accesses : List Access,
      db.attend settings accesses = db.attend settings (accesses.filter Access.isCall) ∧
      openAt f settings (some (db.attend settings accesses).2) =
        .returned (.ok ((db.attend settings accesses).2, f'))) ∧
    ∀ file : Database, file.isPrivate = false → ∃ result left,
      file.commit Transaction.openTables = (result, left) ∧
      openAt f settings (some file) = .returned (result.map fun _ => (left, f')) ∧
      file.OpensSafely result left := by
  have hcurrent := isCurrent_of_openAt hopen hshared
  refine ⟨fun accesses => ⟨hcurrent.attend_eq settings accesses, ?_⟩, fun file hfile =>
    ⟨_, _, rfl, openAt_eq_commit hopen hfile, opensSafely file⟩⟩
  rw [openAt_held hopen, (hcurrent.attend settings accesses).reopened_eq]
  rfl

/-- The sample calls, each between a reopening that succeeds and one among files that have no place
for the path. -/
def sampleAccesses : List Access :=
  Store.sampleCalls.flatMap fun (now, c) =>
    [.reopen .empty, .call now c, .reopen ⟨.file .empty, []⟩]

/-- What the sample calls leave behind, in a file without a version. -/
def sampleUnversioned : Database := { sampleLeft with versions := [] }

theorem reopening_is_transparent_sample : ∃ f',
    openAt .empty { path := "issues.db" } = .returned (.ok (Store.sampleDatabase, f')) ∧
    Store.sampleDatabase.isPrivate = false ∧
    Store.sampleDatabase.attend { path := "issues.db" } sampleAccesses =
      Store.sampleDatabase.attend { path := "issues.db" } (sampleAccesses.filter Access.isCall) ∧
    sampleUnversioned.isPrivate = false ∧ ∃ result left,
      sampleUnversioned.commit Transaction.openTables = (result, left) ∧
      openAt .empty { path := "issues.db" } (some sampleUnversioned) =
        .returned (result.map fun _ => (left, f')) ∧
      sampleUnversioned.OpensSafely result left := by
  obtain ⟨f', hopen⟩ := exists_openAt_sampleDatabase
  have hshared : Store.sampleDatabase.isPrivate = false := rfl
  have hfile : sampleUnversioned.isPrivate = false := by
    simp only [sampleUnversioned, isPrivate_sampleLeft]
  obtain ⟨haccesses, hfiles⟩ := reopening_is_transparent hopen hshared
  exact ⟨f', hopen, hshared, (haccesses sampleAccesses).1, hfile, hfiles sampleUnversioned hfile⟩

end Triage.Database
