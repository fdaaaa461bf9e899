import Triage.Catalog
import Triage.Gate
import Triage.Lock
import Triage.Service.Script
import Triage.Store.Basic

/-!
# The service's world

The collaborators of the service in one state, and how they answer the steps of a script.  A call
may be made to fail before it reaches its collaborator, or to break the script off.
-/

namespace Triage

/-- The collaborators: store, index, gate, catalog, locks, clock, audit log, and how many fresh
keys were drawn. -/
structure World where
  store : Store := .memory {}
  index : Index := {}
  gate : Gate := {}
  catalog : Catalog := {}
  locks : LockTable := {}
  clock : Timestamp := default
  audit : AuditSink := default
  keysDrawn : Nat := 0

/-- What can go wrong with a call: an error in place of the answer, an answer without its content,
or a break in the middle of the script. -/
inductive Failure
  | store (e : StoreError)
  | index (e : IndexError)
  | catalog (e : CatalogError)
  | empty
  | panic
deriving DecidableEq

/-- Whether the step is a call of a collaborator. -/
def Call.isOutside : Call → Bool
  | .store _ | .index _ | .catalog _ => true
  | _ => false

namespace Index

/-- Performs a call of the index. -/
def perform (x : Index) : (c : IndexCall) → c.Answer × Index
  | .put d => ((), x.put d)
  | .remove key => ((), x.remove key)
  | .keys => (x.keys, x)
  | .get key => (x.get? key, x)
  | .search r => (x.search r, x)
  | .listTags substring size => (x.listTags substring size, x)
  | .facet q field => (x.facet q field, x)

end Index

namespace Catalog

/-- Answers a call of the catalog. -/
def answer (c : Catalog) : (call : CatalogCall) → call.Answer
  | .rule key => c.rules.get? key
  | .user login => c.users.get? login
  | .plan key => c.actionPlans.get? key
  | .component key => c.component? key
  | .project uuid => c.project? uuid

end Catalog

namespace World

/-- The fresh key after `n` others: a universally unique identifier that counts up. -/
def nthKey (n : Nat) : IssueKey :=
  let digits := Nat.toDigits 16 (n + 1)
  ⟨"00000000-0000-4000-8000-" ++ String.ofList (List.replicate (12 - digits.length) '0' ++ digits)⟩

/-- The number that stamps audit events. -/
def auditStamp (w : World) : Nat := w.clock.millis.toInt.toNat

/-- The undisturbed answer to a step. -/
def perform (w : World) : (c : Call) → c.Answer × World
  | .store c => let (r, s) := w.store.perform w.clock c; (r, { w with store := s })
  | .index c => let (r, x) := w.index.perform c; (.ok r, { w with index := x })
  | .catalog c => (.ok (w.catalog.answer c), w)
  | .permits principal op project => (w.gate.permits principal op project, w)
  | .freshKey => (nthKey w.keysDrawn, { w with keysDrawn := w.keysDrawn + 1 })
  | .enter key => let (r, t) := w.locks.enter key; (r, { w with locks := t })
  | .leave key => ((), { w with locks := w.locks.leave key })
  | .record e => ((), { w with audit := w.audit.record w.auditStamp e })

/-- The answer to a step that may be disturbed; none if the script breaks off. -/
def respond (w : World) (f : Option Failure) (c : Call) : Option c.Answer × World :=
  match f, c with
  | some .panic, c =>
    if c.isOutside then (none, w) else let (r, w) := w.perform c; (some r, w)
  | some (.store e), .store _ => (some (.error e), w)
  | some (.index e), .index _ => (some (.error e), w)
  | some (.catalog e), .catalog _ => (some (.error e), w)
  | some .empty, .store (.insert issues) =>
    let (r, w) := w.perform (.store (.insert issues))
    (some (r.map fun _ => []), w)
  | some .empty, .index (.get _) => (some (.ok none), w)
  | _, c => let (r, w) := w.perform c; (some r, w)

/-- The world after a script broke off that held the locks of the keys. -/
def abandon (w : World) (held : List IssueKey) : World :=
  { w with locks := held.foldl LockTable.abandon w.locks }

end World

end Triage
