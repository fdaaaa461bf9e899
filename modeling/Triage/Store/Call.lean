import Triage.Issue.Change
import Triage.Store.Error

/-!
# Calls of a store

What can be asked of an issue store, and the type of each answer.  A store is a value with a
function that performs calls on it; the state is returned whether or not the call succeeds.
-/

namespace Triage

/-- A call of a store. -/
inductive StoreCall
  | insert (issues : List Issue)
  | selectByKey (key : IssueKey)
  | selectAll
  | update (issue : Issue)
  | updateWithChange (issue : Issue) (user : Login) (diffs : List FieldDiff)
  | insertChange (change : IssueChange)
  | selectChanges (key : IssueKey)
deriving DecidableEq

/-- What a successful call answers. -/
abbrev StoreCall.Answer : StoreCall → Type
  | .insert _ => List Issue
  | .selectByKey _ => Option Issue
  | .selectAll => List Issue
  | .update _ => Issue
  | .updateWithChange _ _ _ => Issue
  | .insertChange _ => Unit
  | .selectChanges _ => List IssueChange

/-- The row that an insertion at `now` stores. -/
def Issue.inserted (i : Issue) (now : Timestamp) : Issue :=
  { i with createdAt := now, updatedAt := now }

/-- The row that an update at `now` stores over one with the given stamps. -/
def Issue.updated (i : Issue) (createdAt previous now : Timestamp) : Issue :=
  { i with createdAt := createdAt, updatedAt := previous.nextAfter now }

namespace StoreError

/-- An issue that should be there and is not. -/
def unknownIssue (key : IssueKey) : StoreError := ⟨.notFound, key.text⟩

/-- An issue that should not be there and is. -/
def issueExists (key : IssueKey) : StoreError := ⟨.conflict, "issue already exists: " ++ key.text⟩

end StoreError

end Triage
