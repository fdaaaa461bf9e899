import Triage.Label

/-!
# Database settings

Where a database file lies and how it is opened.
-/

namespace Triage

/-- How the database keeps its journal. -/
inductive JournalMode
  | wal
  | delete
deriving DecidableEq, Repr, Inhabited

instance : Label JournalMode where
  noun := "journal mode"
  all := [.wal, .delete]
  label
    | .wal => "wal"
    | .delete => "delete"

/-- How eagerly the database writes through to the disk. -/
inductive SyncMode
  | full
  | normal
deriving DecidableEq, Repr, Inhabited

instance : Label SyncMode where
  noun := "sync mode"
  all := [.full, .normal]
  label
    | .full => "full"
    | .normal => "normal"

/-- The milliseconds that a store waits for a locked database unless told otherwise. -/
def defaultBusyTimeoutMs : Nat := 5000

/-- The longest time in milliseconds that the engine can wait for a locked database. -/
def maxBusyTimeoutMs : Nat := Nat.pow 2 31 - 1

/-- The settings of a store on a database. -/
structure DatabaseSettings where
  path : String
  busyTimeoutMs : Nat := defaultBusyTimeoutMs
  journalMode : JournalMode := .wal
  syncMode : SyncMode := .full
deriving DecidableEq, Repr

end Triage
