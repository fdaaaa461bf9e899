import Triage.Store.Call

/-!
# Store in memory

Rows and changelogs by issue key.  A batch is checked as a whole before its first row is stored.
-/

namespace Triage

/-- A store in memory. -/
structure MemoryStore where
  issues : KeyMap .issue Issue := ∅
  changes : KeyMap .issue (List IssueChange) := ∅
deriving DecidableEq, Inhabited

namespace MemoryStore

/-- The number of rows. -/
def size (s : MemoryStore) : Nat := s.issues.size

/-- The changelog of an issue, the oldest entry first. -/
def changelog (s : MemoryStore) (key : IssueKey) : List IssueChange := (s.changes.get? key).getD []

/-- The first key of a batch that is stored already or stands earlier in the batch. -/
def firstTaken? (s : MemoryStore) (seen : List IssueKey) : List Issue → Option IssueKey
  | [] => none
  | i :: is =>
    if s.issues.contains i.key || seen.contains i.key then some i.key
    else firstTaken? s (i.key :: seen) is

/-- The store with `row`, in place of one with the same key. -/
def put (s : MemoryStore) (row : Issue) : MemoryStore :=
  { s with issues := s.issues.insert row.key row }

/-- The store with `change` at the end of its issue's changelog. -/
def append (s : MemoryStore) (change : IssueChange) : MemoryStore :=
  { s with changes :=
      s.changes.insert change.issueKey (s.changelog change.issueKey ++ [change]) }

/-- The entry, unless it lists no difference, appended. -/
def appendNonempty (s : MemoryStore) (change : IssueChange) : MemoryStore :=
  if change.diffs.isEmpty then s else s.append change

/-- Inserts a batch. -/
def insert (s : MemoryStore) (now : Timestamp) (issues : List Issue) :
    Except StoreError (List Issue) × MemoryStore :=
  match s.firstTaken? [] issues with
  | some key => (.error (.issueExists key), s)
  | none =>
    let rows := issues.map (·.inserted now)
    (.ok rows, rows.foldl put s)

/-- Replaces a row. -/
def update (s : MemoryStore) (now : Timestamp) (i : Issue) :
    Except StoreError Issue × MemoryStore :=
  match s.issues.get? i.key with
  | none => (.error (.unknownIssue i.key), s)
  | some old =>
    let row := i.updated old.createdAt old.updatedAt now
    (.ok row, s.put row)

/-- Replaces a row and records the differences, if there are any. -/
def updateWithChange (s : MemoryStore) (now : Timestamp) (i : Issue) (user : Login)
    (diffs : List FieldDiff) : Except StoreError Issue × MemoryStore :=
  match s.update now i with
  | (.ok row, s) => (.ok row, s.appendNonempty ⟨row.key, user, row.updatedAt, diffs⟩)
  | failed => failed

/-- Appends an entry to the changelog of a stored issue. -/
def insertChange (s : MemoryStore) (change : IssueChange) : Except StoreError Unit × MemoryStore :=
  if s.issues.contains change.issueKey then (.ok (), s.append change)
  else (.error (.unknownIssue change.issueKey), s)

/-- Performs a call at `now`. -/
def perform (s : MemoryStore) (now : Timestamp) :
    (c : StoreCall) → Except StoreError c.Answer × MemoryStore
  | .insert issues => s.insert now issues
  | .selectByKey key => (.ok (s.issues.get? key), s)
  | .selectAll => (.ok s.issues.values, s)
  | .update i => s.update now i
  | .updateWithChange i user diffs => s.updateWithChange now i user diffs
  | .insertChange change => s.insertChange change
  | .selectChanges key => (.ok (s.changelog key), s)

end MemoryStore

end Triage
