import Triage.Proofs.Store.Calls
import Triage.Proofs.Store.Payload
import Triage.Store.Location

/-!
# The database answers as the store in memory

A database and a store in memory that hold the same rows and changelogs give the same answer to
every call and hold the same again, as long as what is written fits a payload and its efforts are
read as they are written.  So two stores that start empty answer every sequence of calls alike.
-/

namespace Triage

/-! ## What a call writes -/

namespace MemoryStore

/-- The issues of a batch before the first that is stored already or stands earlier in the batch. -/
def admitted (m : MemoryStore) (seen : List IssueKey) : List Issue → List Issue
  | [] => []
  | i :: is =>
    if m.issues.contains i.key || seen.contains i.key then []
    else i :: admitted m (i.key :: seen) is

/-- The rows that a call stamps at `now`. -/
def stamped (m : MemoryStore) (now : Timestamp) : StoreCall → List Issue
  | .insert issues => (m.admitted [] issues).map (·.inserted now)
  | .update i | .updateWithChange i _ _ =>
    ((m.issues.get? i.key).map fun old => i.updated old.createdAt old.updatedAt now).toList
  | _ => []

/-- The changelog entries that a call files at `now`. -/
def recorded (m : MemoryStore) (now : Timestamp) : StoreCall → List IssueChange
  | .updateWithChange i user diffs =>
    if diffs.isEmpty then []
    else (m.stamped now (.update i)).map fun row => ⟨row.key, user, row.updatedAt, diffs⟩
  | .insertChange c => if m.issues.contains c.issueKey then [c] else []
  | _ => []

/-- Whether all that a call writes is kept as a payload. -/
structure Writable (m : MemoryStore) (now : Timestamp) (c : StoreCall) : Prop where
  rows : ∀ i ∈ m.stamped now c, Payload.Keeps i
  entries : ∀ e ∈ m.recorded now c, Payload.Keeps e

theorem contains_put (m : MemoryStore) (row : Issue) (key : IssueKey) :
    (m.put row).issues.contains key = (decide (row.key = key) || m.issues.contains key) := by
  rw [KeyMap.contains, put, KeyMap.get?_insert]
  by_cases h : row.key = key <;> simp [h, KeyMap.contains]

/-- Whether a batch is checked alike against two stores and the keys seen. -/
def ChecksAlike (m m' : MemoryStore) (seen seen' : List IssueKey) : Prop :=
  ∀ key, (m.issues.contains key || seen.contains key) =
    (m'.issues.contains key || seen'.contains key)

section ChecksAlike

variable {m m' : MemoryStore} {seen seen' : List IssueKey}

theorem ChecksAlike.cons (h : m.ChecksAlike m' seen seen') (key : IssueKey) :
    m.ChecksAlike m' (key :: seen) (key :: seen') := by
  intro key'
  rw [List.contains_cons, List.contains_cons, Bool.or_left_comm, h key', Bool.or_left_comm]

theorem ChecksAlike.firstTaken?_eq (h : m.ChecksAlike m' seen seen') (is : List Issue) :
    m.firstTaken? seen is = m'.firstTaken? seen' is := by
  induction is generalizing seen seen' with
  | nil => rfl
  | cons i is ih => rw [firstTaken?, firstTaken?, h i.key, ih (h.cons i.key)]

theorem ChecksAlike.admitted_eq (h : m.ChecksAlike m' seen seen') (is : List Issue) :
    m.admitted seen is = m'.admitted seen' is := by
  induction is generalizing seen seen' with
  | nil => rfl
  | cons i is ih => rw [admitted, admitted, h i.key, ih (h.cons i.key)]

/-- To have stored the first row of a batch is to have seen its key. -/
theorem checksAlike_put (m : MemoryStore) (row : Issue) :
    (m.put row).ChecksAlike m [] [row.key] := by
  intro key
  rw [contains_put, Bool.or_comm (decide _), Bool.or_assoc]
  simp [eq_comm]

end ChecksAlike

end MemoryStore

/-! ## The tables of a store in memory -/

namespace Database

open Transaction

/-- Whether the tables hold the rows and changelogs of a store in memory, all of them kept. -/
structure Mirrors (db : Database) (m : MemoryStore) : Prop where
  issues : db.issues = some (m.issues.map IssueRow.of)
  changes : ∃ t, db.changes = some t ∧ ∀ key, (t.filedUnder key).map (·.payload) =
    (m.changelog key).map fun c => Payload.blob (jsonText c).toUTF8
  rows : ∀ key i, m.issues.get? key = some i → i.key = key ∧ Payload.Keeps i
  entries : ∀ key, ∀ c ∈ m.changelog key, c.issueKey = key ∧ Payload.Keeps c

variable {db : Database} {m : MemoryStore} {now : Timestamp} {key : IssueKey} {i row : Issue}

theorem Mirrors.issueTable_eq (h : db.Mirrors m) :
    db.issueTable = .ok (m.issues.map IssueRow.of) := by
  rw [issueTable, h.issues]

theorem Mirrors.run_row? (h : db.Mirrors m) (key : IssueKey) :
    (row? key).run db = .ok ((m.issues.get? key).map IssueRow.of, db) := by
  unfold row?
  simp [h.issueTable_eq]

theorem Mirrors.run_setRow (h : db.Mirrors m) (hrow : Payload.Keeps row) :
    ∃ db', (setRow row.key (.of row)).run db = .ok ((), db') ∧ db'.Mirrors (m.put row) := by
  refine ⟨{ db with issues := some ((m.put row).issues.map IssueRow.of) }, ?_, rfl, h.changes, ?_,
    h.entries⟩
  · unfold setRow
    simp [h.issueTable_eq, MemoryStore.put, KeyMap.map_insert]
  · intro key i hi
    rw [MemoryStore.put, KeyMap.get?_insert] at hi
    split_ifs at hi with hkey
    · cases hi
      exact ⟨hkey, hrow⟩
    · exact h.rows key i hi

theorem Mirrors.run_fileChange {c : IssueChange} (h : db.Mirrors m) (hc : Payload.Keeps c) :
    ∃ db', (fileChange c).run db = .ok ((), db') ∧ db'.Mirrors (m.append c) := by
  obtain ⟨t, ht, hlogs⟩ := h.changes
  have htable : db.changeTable = .ok t := by rw [changeTable, ht]
  let payload : Payload := .blob (jsonText c).toUTF8
  refine ⟨{ db with changes := some (t.file c.issueKey c.createdAt payload) }, ?_, h.issues,
    ⟨_, rfl, fun key => ?_⟩, h.rows, fun key e he => ?_⟩
  · unfold fileChange
    simp [htable, hc.encode_eq, payload]
  · rw [MemoryStore.changelog_append, ChangeTable.filedUnder_file, List.map_append, hlogs key]
    by_cases hkey : c.issueKey = key <;> simp [payload, hkey]
  · rw [MemoryStore.changelog_append] at he
    split_ifs at he with hkey
    · rcases List.mem_append.1 he with he | he
      · exact h.entries key e he
      · rw [List.mem_singleton.1 he]
        exact ⟨hkey, hc⟩
    · exact h.entries key e he

/-! ## Transactions -/

theorem run_ofIssue (hrow : Payload.Keeps row) (db : Database) :
    (liftM (IssueRow.ofIssue row) : Transaction IssueRow).run db = .ok (.of row, db) := by
  rw [IssueRow.ofIssue_eq hrow]
  rfl

theorem Mirrors.run_insertIssue_of_taken (h : db.Mirrors m)
    (htaken : m.issues.contains i.key = true) :
    (insertIssue now i).run db = .error (.conflict ("issue already exists: " ++ i.key.text)) := by
  have hsome : ((m.issues.get? i.key).map IssueRow.of).isSome = true := by
    rw [Option.isSome_map]
    exact htaken
  rw [insertIssue, run_bind_of_eq_ok (h.run_row? i.key), if_pos hsome]
  rfl

theorem Mirrors.run_insertIssue_of_free (h : db.Mirrors m)
    (hfree : m.issues.contains i.key = false) (hi : Payload.Keeps (i.inserted now)) :
    ∃ db', (insertIssue now i).run db = .ok (i.inserted now, db') ∧
      db'.Mirrors (m.put (i.inserted now)) := by
  have hnone : ((m.issues.get? i.key).map IssueRow.of).isSome = false := by
    rw [Option.isSome_map]
    exact hfree
  obtain ⟨db', hset, hmirrors⟩ := h.run_setRow hi
  refine ⟨db', ?_, hmirrors⟩
  rw [insertIssue, run_bind_of_eq_ok (h.run_row? i.key), hnone]
  exact (run_bind_of_eq_ok (run_ofIssue hi db)).trans (run_bind_of_eq_ok hset)

theorem Mirrors.run_updateIssue {old : Issue} (h : db.Mirrors m)
    (hold : m.issues.get? i.key = some old)
    (hi : Payload.Keeps (i.updated old.createdAt old.updatedAt now)) :
    ∃ db', (updateIssue now i).run db = .ok (i.updated old.createdAt old.updatedAt now, db') ∧
      db'.Mirrors (m.put (i.updated old.createdAt old.updatedAt now)) := by
  obtain ⟨db', hset, hmirrors⟩ := h.run_setRow hi
  refine ⟨db', ?_, hmirrors⟩
  have hrow := h.run_row? i.key
  rw [hold] at hrow
  rw [updateIssue, run_bind_of_eq_ok hrow]
  exact (run_bind_of_eq_ok (run_ofIssue hi db)).trans (run_bind_of_eq_ok hset)

theorem Mirrors.run_updateIssue_of_missing (h : db.Mirrors m)
    (hnone : m.issues.get? i.key = none) :
    (updateIssue now i).run db = .error (.notFound i.key.text) := by
  have hrow := h.run_row? i.key
  rw [hnone] at hrow
  rw [updateIssue, run_bind_of_eq_ok hrow]
  rfl

theorem Mirrors.run_insertChange {c : IssueChange} (h : db.Mirrors m)
    (hrow : m.issues.contains c.issueKey = true) (hc : Payload.Keeps c) :
    ∃ db', (Transaction.insertChange c).run db = .ok ((), db') ∧ db'.Mirrors (m.append c) := by
  have hsome : ((m.issues.get? c.issueKey).map IssueRow.of).isNone = false := by
    simpa [KeyMap.contains] using hrow
  obtain ⟨db', hfile, hmirrors⟩ := h.run_fileChange hc
  refine ⟨db', ?_, hmirrors⟩
  rw [Transaction.insertChange, run_bind_of_eq_ok (h.run_row? c.issueKey), hsome]
  exact hfile

theorem Mirrors.run_insertChange_of_missing {c : IssueChange} (h : db.Mirrors m)
    (hrow : m.issues.contains c.issueKey = false) :
    (Transaction.insertChange c).run db = .error (.notFound c.issueKey.text) := by
  have hnone : ((m.issues.get? c.issueKey).map IssueRow.of).isNone = true := by
    simpa [KeyMap.contains] using hrow
  rw [Transaction.insertChange, run_bind_of_eq_ok (h.run_row? c.issueKey), if_pos hnone]
  rfl

/-! ## Batches -/

theorem Mirrors.run_mapM_insertIssue_of_taken (h : db.Mirrors m) {is : List Issue}
    (his : ∀ i ∈ m.admitted [] is, Payload.Keeps (i.inserted now))
    (htaken : m.firstTaken? [] is = some key) :
    (is.mapM (insertIssue now)).run db =
      .error (.conflict ("issue already exists: " ++ key.text)) := by
  induction is generalizing m db with
  | nil => cases htaken
  | cons i is ih =>
    rw [List.mapM_cons]
    rw [MemoryStore.admitted] at his
    rw [MemoryStore.firstTaken?] at htaken
    split_ifs at htaken his with hi
    · cases htaken
      exact run_bind_of_eq_error (h.run_insertIssue_of_taken (by simpa using hi))
    · obtain ⟨db₁, hrun, h₁⟩ := h.run_insertIssue_of_free (by simpa using hi)
        (his i List.mem_cons_self)
      rw [run_bind_of_eq_ok hrun]
      have hput := m.checksAlike_put (i.inserted now)
      have hadmitted := hput.admitted_eq is
      exact run_bind_of_eq_error (ih h₁
        (fun j hj => his j (List.mem_cons_of_mem _ (hadmitted ▸ hj)))
        ((hput.firstTaken?_eq is).trans htaken))

theorem Mirrors.run_mapM_insertIssue_of_free (h : db.Mirrors m) {is : List Issue}
    (his : ∀ i ∈ m.admitted [] is, Payload.Keeps (i.inserted now))
    (hfree : m.firstTaken? [] is = none) :
    ∃ db', (is.mapM (insertIssue now)).run db = .ok (is.map (·.inserted now), db') ∧
      db'.Mirrors ((is.map (·.inserted now)).foldl MemoryStore.put m) := by
  induction is generalizing m db with
  | nil => exact ⟨db, rfl, h⟩
  | cons i is ih =>
    rw [MemoryStore.admitted] at his
    rw [MemoryStore.firstTaken?] at hfree
    split_ifs at hfree his with hi
    obtain ⟨db₁, hrun, h₁⟩ := h.run_insertIssue_of_free (by simpa using hi)
      (his i List.mem_cons_self)
    have hput := m.checksAlike_put (i.inserted now)
    obtain ⟨db', hrest, h'⟩ := ih h₁
      (fun j hj => his j (List.mem_cons_of_mem _ (hput.admitted_eq is ▸ hj)))
      ((hput.firstTaken?_eq is).trans hfree)
    refine ⟨db', ?_, h'⟩
    rw [List.mapM_cons, run_bind_of_eq_ok hrun, run_bind_of_eq_ok hrest]
    rfl

/-! ## Calls -/

/-- Whether a transaction ends as a call of a store in memory. -/
def Follows {α : Type} (db : Database) (t : Transaction α)
    (r : Except StoreError α × MemoryStore) : Prop :=
  (db.commit t).1.mapError DatabaseError.toStoreError = r.1 ∧ (db.commit t).2.Mirrors r.2

theorem follows_of_ok {α : Type} {t : Transaction α} {a : α} {db' : Database}
    (ht : t.run db = .ok (a, db')) (h : db'.Mirrors m) : db.Follows t (.ok a, m) := by
  rw [Follows, commit, ht]
  exact ⟨rfl, h⟩

theorem follows_of_error {α : Type} {t : Transaction α} {e : DatabaseError}
    (ht : t.run db = .error e) (h : db.Mirrors m) :
    db.Follows t (.error e.toStoreError, m) := by
  rw [Follows, commit, ht]
  exact ⟨rfl, h⟩

theorem Mirrors.follows_insert (h : db.Mirrors m) {is : List Issue}
    (hw : m.Writable now (.insert is)) :
    db.Follows (is.mapM (insertIssue now)) (m.insert now is) := by
  have his : ∀ i ∈ m.admitted [] is, Payload.Keeps (i.inserted now) := fun i hi =>
    hw.rows _ (List.mem_map_of_mem hi)
  unfold MemoryStore.insert
  split
  case h_1 key htaken => exact follows_of_error (h.run_mapM_insertIssue_of_taken his htaken) h
  case h_2 hfree =>
    obtain ⟨db', hrun, h'⟩ := h.run_mapM_insertIssue_of_free his hfree
    exact follows_of_ok hrun h'

theorem Mirrors.follows_update (h : db.Mirrors m) (hw : m.Writable now (.update i)) :
    db.Follows (updateIssue now i) (m.update now i) := by
  unfold MemoryStore.update
  split
  case h_1 hnone => exact follows_of_error (h.run_updateIssue_of_missing hnone) h
  case h_2 old hold =>
    have hrow : Payload.Keeps (i.updated old.createdAt old.updatedAt now) :=
      hw.rows _ (by simp [MemoryStore.stamped, hold])
    obtain ⟨db', hrun, h'⟩ := h.run_updateIssue hold hrow
    exact follows_of_ok hrun h'

theorem Mirrors.follows_updateWithChange {user : Login} {diffs : List FieldDiff}
    (h : db.Mirrors m) (hw : m.Writable now (.updateWithChange i user diffs)) :
    db.Follows (updateIssueWithChange now i user diffs) (m.updateWithChange now i user diffs) := by
  rcases hold : m.issues.get? i.key with _ | old
  · have hmemory : m.updateWithChange now i user diffs = (.error (.unknownIssue i.key), m) := by
      simp [MemoryStore.updateWithChange, MemoryStore.update, hold]
    rw [hmemory]
    exact follows_of_error (run_bind_of_eq_error (h.run_updateIssue_of_missing hold)) h
  · have hrow : Payload.Keeps (i.updated old.createdAt old.updatedAt now) :=
      hw.rows _ (by simp [MemoryStore.stamped, hold])
    obtain ⟨db₁, hrun, h₁⟩ := h.run_updateIssue hold hrow
    have hmemory : m.updateWithChange now i user diffs =
        (.ok (i.updated old.createdAt old.updatedAt now),
          (m.put (i.updated old.createdAt old.updatedAt now)).appendNonempty
            ⟨i.key, user, old.updatedAt.nextAfter now, diffs⟩) := by
      simp [MemoryStore.updateWithChange, MemoryStore.update, hold, Issue.updated]
    rw [hmemory, MemoryStore.appendNonempty]
    split_ifs with hdiffs
    · refine follows_of_ok ?_ h₁
      rw [updateIssueWithChange, run_bind_of_eq_ok hrun, if_pos hdiffs]
      rfl
    · have hentry : Payload.Keeps (α := IssueChange)
          ⟨i.key, user, old.updatedAt.nextAfter now, diffs⟩ :=
        hw.entries _ (by simp [MemoryStore.recorded, MemoryStore.stamped, hold, hdiffs,
          Issue.updated])
      obtain ⟨db', hfile, h'⟩ := h₁.run_fileChange hentry
      refine follows_of_ok ?_ h'
      rw [updateIssueWithChange, run_bind_of_eq_ok hrun, if_neg hdiffs]
      exact run_bind_of_eq_ok hfile

theorem Mirrors.follows_insertChange {c : IssueChange} (h : db.Mirrors m)
    (hw : m.Writable now (.insertChange c)) :
    db.Follows (Transaction.insertChange c) (m.insertChange c) := by
  unfold MemoryStore.insertChange
  split_ifs with hrow
  · have hkeeps : Payload.Keeps c := hw.entries c (by simp [MemoryStore.recorded, hrow])
    obtain ⟨db', hrun, h'⟩ := h.run_insertChange hrow hkeeps
    exact follows_of_ok hrun h'
  · exact follows_of_error (h.run_insertChange_of_missing (by simpa using hrow)) h

theorem Mirrors.load_eq (h : db.Mirrors m) (key : IssueKey) :
    db.load key = .ok (m.issues.get? key) := by
  rw [load, h.issueTable_eq, ok_bind, KeyMap.get?_map]
  rcases hi : m.issues.get? key with _ | i
  · rfl
  · obtain ⟨rfl, hkeeps⟩ := h.rows key i hi
    simpa [IssueRow.bytes?_of] using IssueRow.decode_of_eq hkeeps

theorem Mirrors.loadAll_eq (h : db.Mirrors m) : db.loadAll = .ok m.issues.values := by
  let rowOf (e : IssueKey × Issue) : IssueKey × IssueRow := (e.1, .of e.2)
  have hbytes : (m.issues.entries.map rowOf).mapM
      (fun e => do return (e, ← e.2.bytes?) : _ → Except DatabaseError _) =
        .ok (m.issues.entries.map fun e => (rowOf e, (jsonText e.2).toUTF8)) := by
    rw [List.mapM_map]
    exact mapM_eq_ok_map fun e _ => by simp [rowOf, IssueRow.bytes?_of]
  have hissues : (m.issues.entries.map fun e => (rowOf e, (jsonText e.2).toUTF8)).mapM
      (fun (e, bytes) => e.2.decode e.1 bytes) = .ok m.issues.values := by
    rw [List.mapM_map]
    refine mapM_eq_ok_map fun ⟨key, i⟩ he => ?_
    obtain ⟨rfl, hkeeps⟩ := h.rows key i (KeyMap.mem_entries_iff.1 he)
    exact IssueRow.decode_of_eq hkeeps
  rw [loadAll, h.issueTable_eq, ok_bind, KeyMap.map, hbytes, ok_bind]
  exact hissues

theorem Mirrors.loadChanges_eq (h : db.Mirrors m) (key : IssueKey) :
    db.loadChanges key = .ok (m.changelog key) := by
  obtain ⟨t, ht, hlogs⟩ := h.changes
  have htable : db.changeTable = .ok t := by rw [changeTable, ht]
  have hbytes : (t.filedUnder key).mapM ChangeRow.bytes? =
      .ok ((m.changelog key).map fun c => (jsonText c).toUTF8) := by
    have hpayloads : (t.filedUnder key).mapM ChangeRow.bytes? =
        ((t.filedUnder key).map (·.payload)).mapM (Payload.bytes? "change_json") :=
      (List.mapM_map).symm
    rw [hpayloads, hlogs key, List.mapM_map]
    exact mapM_eq_ok_map fun c _ => rfl
  rw [loadChanges, htable, ok_bind, hbytes, ok_bind, List.mapM_map]
  have hentries : (m.changelog key).mapM (ChangeRow.decode key ∘ fun c => (jsonText c).toUTF8) =
      .ok ((m.changelog key).map id) := by
    refine mapM_eq_ok_map fun c hc => ?_
    obtain ⟨rfl, hkeeps⟩ := h.entries key c hc
    exact ChangeRow.decode_eq hkeeps
  rwa [List.map_id] at hentries

/-- A call gets the same answer from both stores, and leaves them holding the same. -/
theorem Mirrors.perform (h : db.Mirrors m) {c : StoreCall} (hw : m.Writable now c) :
    (db.perform now c).1 = (m.perform now c).1 ∧
      (db.perform now c).2.Mirrors (m.perform now c).2 := by
  cases c with
  | insert is => exact h.follows_insert hw
  | update i => exact h.follows_update hw
  | updateWithChange i user diffs => exact h.follows_updateWithChange hw
  | insertChange c => exact h.follows_insertChange hw
  | selectByKey key => exact ⟨congrArg (·.mapError DatabaseError.toStoreError) (h.load_eq key), h⟩
  | selectAll => exact ⟨congrArg (·.mapError DatabaseError.toStoreError) h.loadAll_eq, h⟩
  | selectChanges key =>
    exact ⟨congrArg (·.mapError DatabaseError.toStoreError) (h.loadChanges_eq key), h⟩

/-! ## Fresh stores -/

theorem reopened_of_prepare {s : DatabaseSite} {f : Files} {mode : JournalMode}
    {held : Option Database} (h : s.prepare f mode held = .ok db) :
    (held.getD { isPrivate := s.isPrivate }).reopened = .ok db := by
  unfold DatabaseSite.prepare at h
  simp at h
  obtain ⟨-, h⟩ := h
  split_ifs at h
  · cases h
  · exact h

theorem reopened_of_openAt {f f' : Files} {settings : DatabaseSettings} {held : Option Database}
    (h : openAt f settings held = .returned (.ok (db, f'))) :
    ∃ isPrivate, (held.getD { isPrivate := isPrivate }).reopened = .ok db := by
  unfold openAt at h
  split at h
  case h_1 => cases h
  case h_2 s f₁ _ =>
    split_ifs at h
    rcases hprepare : s.prepare f₁ settings.journalMode held with e | db'
    · simp [hprepare, Except.map] at h
    · simp only [hprepare, Except.map, Outcome.returned.injEq, Except.ok.injEq,
        Prod.mk.injEq] at h
      exact ⟨s.isPrivate, h.1 ▸ reopened_of_prepare hprepare⟩

/-- A database is opened if that is what the result shows of it. -/
theorem exists_openAt {f : Files} {settings : DatabaseSettings} {held : Option Database}
    (h : (openAt f settings held).map (fun r => r.toOption.map (·.1)) = .returned (some db)) :
    ∃ f', openAt f settings held = .returned (.ok (db, f')) := by
  rcases hopen : openAt f settings held with (e | ⟨db', f'⟩) | _
  · simp [hopen, Outcome.map, Except.toOption] at h
  · simp [hopen, Outcome.map, Except.toOption] at h
    exact ⟨f', by rw [h]⟩
  · simp [hopen, Outcome.map] at h

theorem mirrors_of_reopened {isPrivate : Bool}
    (h : ({ isPrivate := isPrivate } : Database).reopened = .ok db) : db.Mirrors {} := by
  have hdb : db = { isPrivate := isPrivate, versions := [layoutVersion], issues := some ∅,
                    changes := some ∅ } := by
    have helsewhere : ({ isPrivate := isPrivate } : Database).elsewhere =
        { isPrivate := isPrivate } := by
      cases isPrivate <;> rfl
    rw [reopened, helsewhere] at h
    exact (Except.ok.inj h).symm
  subst hdb
  refine ⟨rfl, ⟨∅, rfl, fun key => ?_⟩, fun key i hi => ?_, fun key c hc => ?_⟩
  · rw [ChangeTable.filedUnder_empty]
    rfl
  · have hnone : ({} : MemoryStore).issues.get? key = none := rfl
    rw [hnone] at hi
    cases hi
  · have hnil : ({} : MemoryStore).changelog key = [] := rfl
    rw [hnil] at hc
    cases hc

end Database

/-! ## Sequences of calls -/

namespace MemoryStore

/-- Whether all that a call writes fits a payload, with efforts that are finite and read as they are
written. -/
structure Fits (m : MemoryStore) (now : Timestamp) (c : StoreCall) : Prop where
  rows : ∀ i ∈ m.stamped now c, (jsonText i).toUTF8.size ≤ maxPayloadBytes
  entries : ∀ e ∈ m.recorded now c, (jsonText e).toUTF8.size ≤ maxPayloadBytes
  efforts : ∀ i ∈ m.stamped now c, ∀ x ∈ i.effortToFix, x.Exact

instance (m : MemoryStore) (now : Timestamp) (c : StoreCall) : Decidable (m.Fits now c) :=
  decidable_of_iff
    ((∀ i ∈ m.stamped now c, Payload.size i ≤ maxPayloadBytes) ∧
      (∀ e ∈ m.recorded now c, Payload.size e ≤ maxPayloadBytes) ∧
      ∀ i ∈ m.stamped now c, ∀ x ∈ i.effortToFix, x.Exact)
    (by
      simp only [← Payload.size_toUTF8_jsonText]
      exact ⟨fun h => ⟨h.1, h.2.1, h.2.2⟩, fun h => ⟨h.rows, h.entries, h.efforts⟩⟩)

theorem Fits.writable {m : MemoryStore} {now : Timestamp} {c : StoreCall} (h : m.Fits now c) :
    m.Writable now c where
  rows i hi := Payload.keeps_issue (h.rows i hi) (h.efforts i hi)
  entries e he := Payload.keeps_change (h.entries e he)

/-- Whether each of the calls, made one after the other, writes only what fits. -/
def AllFit (m : MemoryStore) : List (Timestamp × StoreCall) → Prop
  | [] => True
  | (now, c) :: calls => m.Fits now c ∧ (m.perform now c).2.AllFit calls

instance decidableAllFit (m : MemoryStore) :
    (calls : List (Timestamp × StoreCall)) → Decidable (m.AllFit calls)
  | [] => .isTrue trivial
  | (now, c) :: calls =>
    have := decidableAllFit (m.perform now c).2 calls
    inferInstanceAs (Decidable (m.Fits now c ∧ (m.perform now c).2.AllFit calls))

end MemoryStore

namespace Store

/-- The answers to calls made one after the other. -/
def answers (s : Store) :
    List (Timestamp × StoreCall) → List ((c : StoreCall) × Except StoreError c.Answer)
  | [] => []
  | (now, c) :: calls => ⟨c, (s.perform now c).1⟩ :: (s.perform now c).2.answers calls

theorem answers_of_mirrors {db : Database} {m : MemoryStore} (h : db.Mirrors m)
    {calls : List (Timestamp × StoreCall)} (hcalls : m.AllFit calls) :
    (database db).answers calls = (memory m).answers calls := by
  induction calls generalizing db m with
  | nil => rfl
  | cons call calls ih =>
    obtain ⟨now, c⟩ := call
    obtain ⟨hfits, hcalls⟩ := hcalls
    obtain ⟨hanswer, hmirrors⟩ := h.perform hfits.writable
    have hfirst : ((database db).perform now c).1 = ((memory m).perform now c).1 := hanswer
    rw [answers, answers, hfirst]
    exact congrArg _ (ih hmirrors hcalls)

/-- A fresh database and a fresh store in memory give the same answer to every call of a sequence,
if all that is written fits a payload and the efforts are finite and read as they are written. -/
theorem database_refines_memory {f f' : Files} {settings : DatabaseSettings} {db : Database}
    (hopen : Database.openAt f settings = .returned (.ok (db, f')))
    {calls : List (Timestamp × StoreCall)} (hcalls : MemoryStore.AllFit {} calls) :
    (database db).answers calls = (memory {}).answers calls := by
  obtain ⟨isPrivate, hdb⟩ := Database.reopened_of_openAt hopen
  exact answers_of_mirrors (Database.mirrors_of_reopened hdb) hcalls

/-- A row is stored, changed, refused a second time, and listed with its changelog. -/
def sampleCalls : List (Timestamp × StoreCall) :=
  let fresh := Issue.fresh ⟨"ABCD"⟩ ⟨"repo:rule"⟩ ⟨⟨"app:a.c"⟩, ⟨"c1"⟩, ⟨"p1"⟩⟩
  let row := { fresh with effortToFix := some ⟨0x3ff8000000000000⟩ }
  [(⟨1000⟩, .insert [row]),
    (⟨1000⟩, .updateWithChange { row with severity := .blocker } ⟨"ada"⟩
      [⟨"severity", some "MAJOR", some "BLOCKER"⟩]),
    (⟨2000⟩, .insert [row]),
    (⟨2000⟩, .selectAll),
    (⟨2000⟩, .selectChanges ⟨"ABCD"⟩)]

/-- A database as it is made. -/
def sampleDatabase : Database where
  versions := [Database.layoutVersion]
  issues := some ∅
  changes := some {}

theorem database_refines_memory_sample : ∃ f',
    Database.openAt .empty { path := "issues.db" } = .returned (.ok (sampleDatabase, f')) ∧
      MemoryStore.AllFit {} sampleCalls ∧
      (database sampleDatabase).answers sampleCalls = (memory {}).answers sampleCalls := by
  have hresult : (Database.openAt .empty { path := "issues.db" }).map
      (fun r => r.toOption.map (·.1)) = .returned (some sampleDatabase) := by decide +kernel
  obtain ⟨f', hopen⟩ := Database.exists_openAt hresult
  have hfit : MemoryStore.AllFit {} sampleCalls := by decide +kernel
  exact ⟨f', hopen, hfit, database_refines_memory hopen hfit⟩

end Store

end Triage
