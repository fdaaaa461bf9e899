import Triage.Store.Database
import Triage.Store.Memory

/-!
# Stores

A store of either kind, behind the one set of calls.
-/

namespace Triage

/-- A store. -/
inductive Store
  | memory (s : MemoryStore)
  | database (db : Database)
deriving DecidableEq

/-- Performs a call at `now`. -/
def Store.perform (s : Store) (now : Timestamp) (c : StoreCall) :
    Except StoreError c.Answer × Store :=
  match s with
  | .memory m => (m.perform now c).map id .memory
  | .database db => (db.perform now c).map id .database

end Triage
