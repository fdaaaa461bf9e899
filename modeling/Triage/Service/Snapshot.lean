import Triage.Service.World

/-!
# Snapshots

Store, changelogs and index side by side, as they are between two calls.
-/

namespace Triage

/-- The rows, the changelogs that have entries or cannot be read, and the documents. -/
structure Snapshot where
  rows : List Issue
  changelogs : List (IssueKey × Except StoreError (List IssueChange))
  docs : List IssueDoc

namespace Snapshot

/-- The row of a key. -/
def row? (s : Snapshot) (key : IssueKey) : Option Issue := s.rows.find? fun i => i.key = key

/-- Whether the document shows the row of its key. -/
def showsRow (s : Snapshot) (d : IssueDoc) : Bool :=
  (s.row? d.key).any fun i => d.agrees i.doc.toIssueFields

end Snapshot

namespace World

/-- The answer of the store to a call that only reads. -/
def read (w : World) (c : StoreCall) : Except StoreError c.Answer := (w.store.perform w.clock c).1

/-- The snapshot of the world, if the rows can be read. -/
def snapshot (w : World) : Except StoreError Snapshot := do
  let rows ← w.read .selectAll
  let changelogs := (rows.map fun i => (i.key, w.read (.selectChanges i.key))).filter fun
    | (_, .ok entries) => !entries.isEmpty
    | (_, .error _) => true
  return ⟨rows, changelogs, w.index.docs.values⟩

end World

end Triage
