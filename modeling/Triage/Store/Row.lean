import Triage.Codec.Issue
import Triage.Store.Call

/-!
# Rows of a database

How issues and changelog entries lie in the tables of a database: as JSON payloads of limited
size beside the columns that are searched by.  Reading a row checks its payload against the
columns.
-/

namespace Triage

/-- The most bytes that a payload may have. -/
def maxPayloadBytes : Nat := 1024 * 1024

/-- The cell of a payload: the bytes that a store writes there, or a text, which it never does. -/
inductive Payload
  | blob (bytes : ByteArray)
  | text (t : String)

instance : DecidableEq Payload
  | .blob a, .blob b =>
    have := ByteArray.instDecidableEq a b
    decidable_of_decidable_of_iff (.of_eq (Payload.blob.injEq a b).symm)
  | .text a, .text b =>
    decidable_of_decidable_of_iff (.of_eq (Payload.text.injEq a b).symm)
  | .blob _, .text _ => isFalse fun h => by cases h
  | .text _, .blob _ => isFalse fun h => by cases h

namespace Payload

/-- The bytes of the cell. -/
def bytes? (column : String) : Payload → Except DatabaseError ByteArray
  | .blob b => .ok b
  | .text _ => .error (.engine ("text where bytes belong in column " ++ column))

/-- Refuses payloads above the limit. -/
def checkSize (bytes : ByteArray) : Except DatabaseError Unit :=
  if maxPayloadBytes < bytes.size then .error (.tooLarge maxPayloadBytes bytes.size) else .ok ()

/-- The bytes of the JSON text of a value. -/
def encode {α : Type} [JsonForm α] (a : α) : Except DatabaseError ByteArray := do
  let bytes := (jsonText a).toUTF8
  checkSize bytes
  return bytes

/-- The value whose JSON text the bytes are. -/
def decode {α : Type} [JsonForm α] (bytes : ByteArray) : Except DatabaseError α := do
  checkSize bytes
  match ofJsonBytes? bytes with
  | some a => .ok a
  | none => .error (.invalid "payload cannot be read")

end Payload

/-- A row of the issue table, under its key. -/
structure IssueRow where
  createdAt : Timestamp
  updatedAt : Timestamp
  payload : Payload
deriving DecidableEq

namespace IssueRow

/-- The row that holds `i`. -/
def ofIssue (i : Issue) : Except DatabaseError IssueRow := do
  return ⟨i.createdAt, i.updatedAt, .blob (← Payload.encode i)⟩

/-- The issue in the bytes of the row at `key`, if it agrees with the columns. -/
def decode (key : IssueKey) (r : IssueRow) (bytes : ByteArray) : Except DatabaseError Issue := do
  let i : Issue ← Payload.decode bytes
  if i.key ≠ key then throw (.invalid "issue_key mismatch between column and payload")
  if i.createdAt ≠ r.createdAt ∨ i.updatedAt ≠ r.updatedAt then
    throw (.corrupt ("timestamp mismatch for issue " ++ key.text))
  return i

/-- The bytes of the row. -/
def bytes? (r : IssueRow) : Except DatabaseError ByteArray := r.payload.bytes? "issue_json"

end IssueRow

/-- A row of the changelog table. -/
structure ChangeRow where
  number : Int
  issueKey : IssueKey
  createdAt : Timestamp
  payload : Payload
deriving DecidableEq

namespace ChangeRow

/-- The number of a row that a store has filed; stores count from one. -/
def id (r : ChangeRow) : Nat := r.number.toNat

/-- The entry in the bytes of a row filed under `key`, if it belongs there. -/
def decode (key : IssueKey) (bytes : ByteArray) : Except DatabaseError IssueChange := do
  let c : IssueChange ← Payload.decode bytes
  if c.issueKey ≠ key then
    throw (.corrupt ("changelog entry filed under " ++ key.text ++ " belongs to "
      ++ c.issueKey.text))
  return c

/-- The bytes of the row. -/
def bytes? (r : ChangeRow) : Except DatabaseError ByteArray := r.payload.bytes? "change_json"

end ChangeRow

end Triage
