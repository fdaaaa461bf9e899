import Triage.Store.Database

/-!
# Edits of a database

Changes of the tables that no store makes: columns and payloads set apart from each other, rows
removed or filed elsewhere, tables dropped.  They are what a file can look like after something
else has written to it.
-/

namespace Triage

/-- An edit of a database. -/
inductive DatabaseEdit
  | createdAt (key : IssueKey) (value : Timestamp)
  | updatedAt (key : IssueKey) (value : Timestamp)
  | payload (key : IssueKey) (value : Payload)
  | issueKey (key value : IssueKey)
  | changePayload (id : Int) (value : Payload)
  | changeKey (id : Int) (value : IssueKey)
  | delete (key : IssueKey)
  | version (value : Int64)
  | noVersion
  | dropIssues
  | dropChanges
deriving DecidableEq

/-- The table with `f` applied to the row numbered `number`, which keeps its number. -/
def ChangeTable.edit (t : ChangeTable) (number : Int) (f : ChangeRow → ChangeRow) :
    ChangeTable where
  rows := t.rows.map fun r => { (if r.number = number then f r else r) with number := r.number }
  lastId := t.lastId
  nodup := by
    rw [List.map_map]
    exact t.nodup
  le_lastId := List.forall_mem_map.2 t.le_lastId

namespace Database

/-- Applies `f` to the row at `key`; the answer is the number of rows there. -/
def editRow (db : Database) (key : IssueKey) (f : IssueRow → IssueRow) :
    Except DatabaseError (Nat × Database) := do
  let table ← db.issueTable
  match table.get? key with
  | none => return (0, db)
  | some row => return (1, { db with issues := some (table.insert key (f row)) })

/-- Moves the row at `key` to a key that must be free. -/
def rename (db : Database) (key value : IssueKey) : Except DatabaseError (Nat × Database) := do
  let table ← db.issueTable
  match table.get? key with
  | none => return (0, db)
  | some row =>
    if key ≠ value ∧ table.contains value then
      throw (.engine "UNIQUE constraint failed: issues.issue_key")
    return (1, { db with issues := some ((table.erase key).insert value row) })

/-- Applies `f` to the changelog row numbered `number`, which keeps its number; the answer is the
number of such rows. -/
def editChange (db : Database) (number : Int) (f : ChangeRow → ChangeRow) :
    Except DatabaseError (Nat × Database) := do
  let table ← db.changeTable
  return (table.rows.countP (·.number = number),
    { db with changes := some (table.edit number f) })

/-- Makes an edit of tables that are there; the answer is the number of rows that it touched. -/
def editTables (db : Database) : DatabaseEdit → Except DatabaseError (Nat × Database)
  | .createdAt key value => db.editRow key fun r => { r with createdAt := value }
  | .updatedAt key value => db.editRow key fun r => { r with updatedAt := value }
  | .payload key value => db.editRow key fun r => { r with payload := value }
  | .issueKey key value => db.rename key value
  | .changePayload id value => db.editChange id fun r => { r with payload := value }
  | .changeKey id value => db.editChange id fun r => { r with issueKey := value }
  | .delete key => do
    let table ← db.issueTable
    return ((table.get? key).toList.length, { db with issues := some (table.erase key) })
  | .version value =>
    .ok (db.versions.length, { db with versions := db.versions.map fun _ => value })
  | .noVersion => .ok (db.versions.length, { db with versions := [] })
  | .dropIssues => do
    let _ ← db.issueTable
    return (0, { db with issues := none })
  | .dropChanges => do
    let _ ← db.changeTable
    return (0, { db with changes := none })

/-- Makes an edit through another connection, which finds no tables in a private database. -/
def edit (db : Database) (e : DatabaseEdit) : Except DatabaseError (Nat × Database) :=
  if db.isPrivate then .error (.engine "no such table") else db.editTables e

end Database

end Triage
