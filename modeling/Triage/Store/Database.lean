import Triage.Store.Row

/-!
# Store on a database

The tables of a database file and the store calls on them.  Each writing call is one transaction:
its effects are kept only if all of it succeeds.
-/

namespace Triage

/-- The changelog table: its rows as they were written, no two with one number, and the last number
given out.  Numbers are any integers, since other programs may write rows too. -/
structure ChangeTable where
  rows : List ChangeRow
  lastId : Nat
  nodup : (rows.map (·.number)).Nodup
  le_lastId : ∀ r ∈ rows, r.number ≤ lastId
deriving DecidableEq

namespace ChangeTable

instance : EmptyCollection ChangeTable := ⟨[], 0, .nil, nofun⟩

/-- The table with a row filed under `key`, which takes the next number. -/
def file (t : ChangeTable) (key : IssueKey) (stamp : Timestamp) (payload : Payload) :
    ChangeTable where
  rows := t.rows ++ [⟨t.lastId + 1, key, stamp, payload⟩]
  lastId := t.lastId + 1
  nodup := by
    rw [List.map_append, List.nodup_append]
    refine ⟨t.nodup, by simp, fun n hn n' hn' => ?_⟩
    obtain ⟨r, hr, rfl⟩ := List.mem_map.1 hn
    have hle := t.le_lastId r hr
    simp only [List.map_cons, List.map_nil, List.mem_singleton] at hn'
    omega
  le_lastId := by
    intro r hr
    rcases List.mem_append.1 hr with hr | hr
    · have hle := t.le_lastId r hr
      omega
    · rw [List.mem_singleton.1 hr]
      simp

/-- The rows filed under `key` in the order of their numbers. -/
def filedUnder (t : ChangeTable) (key : IssueKey) : List ChangeRow :=
  (t.rows.filter (·.issueKey = key)).mergeSort fun a b => a.number ≤ b.number

end ChangeTable

/-- The content of a database: the rows of the version table, which are integers, and the two tables
of data, which may be missing but have the columns of this layout where they are there.  Opening a
database that holds a version of another type, and a call on a table with other columns, end with an
error of the engine.  A private database is seen by the one connection to it and ends with it. -/
structure Database where
  isPrivate : Bool := false
  versions : List Int64 := []
  issues : Option (KeyMap .issue IssueRow) := none
  changes : Option ChangeTable := none
deriving DecidableEq, Inhabited

namespace Database

/-! ## Tables -/

/-- The version of the layout that this store writes. -/
def layoutVersion : Int64 := 1

/-- The database as a store opens it: one without a version becomes this version's, with the
tables it lacks. -/
def opened (db : Database) : Except DatabaseError Database :=
  match db.versions with
  | [] => .ok { db with
      versions := [layoutVersion]
      issues := some (db.issues.getD ∅)
      changes := some (db.changes.getD ∅) }
  | v :: _ =>
    if v = layoutVersion then .ok db
    else .error (.versionMismatch ("unsupported schema version: " ++ toString v.toInt))

/-- What another connection sees: of a private database nothing. -/
def elsewhere (db : Database) : Database := if db.isPrivate then { isPrivate := true } else db

/-- The database as another connection of a store opens it. -/
def reopened (db : Database) : Except DatabaseError Database := db.elsewhere.opened

/-- The issue table. -/
def issueTable (db : Database) : Except DatabaseError (KeyMap .issue IssueRow) :=
  match db.issues with
  | some t => .ok t
  | none => .error (.engine "no such table: issues")

/-- The changelog table. -/
def changeTable (db : Database) : Except DatabaseError ChangeTable :=
  match db.changes with
  | some t => .ok t
  | none => .error (.engine "no such table: issue_changes")

/-! ## Transactions -/

/-- Steps on the tables that may fail on the way. -/
abbrev Transaction (α : Type) := StateT Database (Except DatabaseError) α

/-- Runs a transaction, and keeps its effects if it succeeds. -/
def commit {α : Type} (db : Database) (t : Transaction α) : Except DatabaseError α × Database :=
  match t.run db with
  | .ok (a, after) => (.ok a, after)
  | .error e => (.error e, db)

namespace Transaction

/-- The row at `key`. -/
def row? (key : IssueKey) : Transaction (Option IssueRow) := do
  return (← (← get).issueTable).get? key

/-- Sets the row at `key`. -/
def setRow (key : IssueKey) (row : IssueRow) : Transaction Unit := do
  let table ← (← get).issueTable
  modify fun db => { db with issues := some (table.insert key row) }

/-- Stores a new issue. -/
def insertIssue (now : Timestamp) (i : Issue) : Transaction Issue := do
  if (← row? i.key).isSome then throw (.conflict ("issue already exists: " ++ i.key.text))
  let i := i.inserted now
  setRow i.key (← IssueRow.ofIssue i)
  return i

/-- Files a changelog entry under its issue. -/
def fileChange (c : IssueChange) : Transaction Unit := do
  let bytes ← Payload.encode c
  let table ← (← get).changeTable
  modify fun db => { db with changes := some (table.file c.issueKey c.createdAt (.blob bytes)) }

/-- Stores an issue over the row with the same key, whose creation stamp stays. -/
def updateIssue (now : Timestamp) (i : Issue) : Transaction Issue := do
  match ← row? i.key with
  | none => throw (.notFound i.key.text)
  | some old =>
    let i := i.updated old.createdAt old.updatedAt now
    setRow i.key (← IssueRow.ofIssue i)
    return i

/-- Stores an issue over the row with the same key and records the differences, if there are
any. -/
def updateIssueWithChange (now : Timestamp) (i : Issue) (user : Login) (diffs : List FieldDiff) :
    Transaction Issue := do
  let i ← updateIssue now i
  unless diffs.isEmpty do fileChange ⟨i.key, user, i.updatedAt, diffs⟩
  return i

/-- Files a changelog entry of a stored issue. -/
def insertChange (c : IssueChange) : Transaction Unit := do
  if (← row? c.issueKey).isNone then throw (.notFound c.issueKey.text)
  fileChange c

end Transaction

/-! ## Reading -/

/-- The issue stored at `key`. -/
def load (db : Database) (key : IssueKey) : Except DatabaseError (Option Issue) := do
  match (← db.issueTable).get? key with
  | none => return none
  | some row => return some (← row.decode key (← row.bytes?))

/-- All stored issues in the order of their keys. -/
def loadAll (db : Database) : Except DatabaseError (List Issue) := do
  let rows ← (← db.issueTable).entries.mapM fun e => do return (e, ← e.2.bytes?)
  rows.mapM fun (e, bytes) => e.2.decode e.1 bytes

/-- The changelog filed under `key`, the oldest entry first. -/
def loadChanges (db : Database) (key : IssueKey) : Except DatabaseError (List IssueChange) := do
  let payloads ← ((← db.changeTable).filedUnder key).mapM ChangeRow.bytes?
  payloads.mapM (ChangeRow.decode key)

/-! ## Calls -/

/-- Performs a call at `now`. -/
def run (db : Database) (now : Timestamp) :
    (c : StoreCall) → Except DatabaseError c.Answer × Database
  | .insert issues => db.commit (issues.mapM (Transaction.insertIssue now))
  | .selectByKey key => (db.load key, db)
  | .selectAll => (db.loadAll, db)
  | .update i => db.commit (Transaction.updateIssue now i)
  | .updateWithChange i user diffs =>
    db.commit (Transaction.updateIssueWithChange now i user diffs)
  | .insertChange c => db.commit (Transaction.insertChange c)
  | .selectChanges key => (db.loadChanges key, db)

/-- Performs a call at `now`, with the errors that every store reports. -/
def perform (db : Database) (now : Timestamp) (c : StoreCall) :
    Except StoreError c.Answer × Database :=
  let (result, after) := db.run now c
  (result.mapError DatabaseError.toStoreError, after)

end Database

end Triage
