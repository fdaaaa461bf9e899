import Triage.Service.Mutation

/-!
# Rebuilding the index

The index is rebuilt key by key, each under its lock: the row of the key becomes its document, and
a key without a row loses it.
-/

namespace Triage

namespace Service

/-- The event of a rebuilding call. -/
def reindexEvent {α : Type} (call : AuditedCall) (key : Option IssueKey)
    (r : Except ServiceError α) : AuditEvent where
  call := call
  issueKey := key
  outcome := match r with
    | .ok _ => .applied
    | .error e => .ofReindexError e.kind
  errorKind := match r with
    | .ok _ => none
    | .error e => some e.kind

/-- Indexes a stored issue anew and answers its document. -/
def reindex (key : IssueKey) : Script (Except ServiceError IssueDoc) := do
  let r ← locked key (.error .lockPoisoned)
    (do indexRow (← loadIssue key) : Attempt IssueDoc).run
  .single (.record (reindexEvent .reindex (some key) r))
  return r

/-- Makes the index agree with the store at one key, and answers whether there is a row; the lock
of the key is held. -/
def syncKey (key : IssueKey) : Attempt Bool := do
  match ← .store (.selectByKey key) with
  | some row =>
    .index (.put row.doc)
    return true
  | none =>
    .index (.remove key)
    return false

/-- Makes the index agree with the store at each of the keys in turn, and answers how many have a
row. -/
def syncKeys : List IssueKey → Attempt Nat
  | [] => return 0
  | key :: keys => do
    let present ← .mk (locked key (.error .lockPoisoned) (syncKey key).run)
    return (if present then 1 else 0) + (← syncKeys keys)

/-- The keys of the rows and the documents, each once and in order. -/
def keysToSync (rows : List Issue) (indexed : List IssueKey) : List IssueKey :=
  ((rows.map (·.key) ++ indexed).foldl (fun m key => m.insert key ())
    (∅ : KeyMap .issue Unit)).keys

/-- Rebuilds the whole index and answers how many issues it holds. -/
def rebuild : Attempt Nat := do
  let rows ← .store .selectAll
  let indexed ← .index .keys
  syncKeys (keysToSync rows indexed)

/-- Rebuilds the whole index and answers how many issues it holds. -/
def indexAll : Script (Except ServiceError Nat) := do
  let r ← rebuild.run
  .single (.record (reindexEvent .indexAll none r))
  return r

end Service

end Triage
