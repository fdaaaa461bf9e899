import Triage.KeyMap

/-!
# Locks by key

One lock for each issue key that is in use.  A call fetches the lock of its key, which makes one if
there is none, takes it, does its work, and finishes; the last to finish removes the lock.  A call
that breaks off leaves the lock poisoned, and whoever meets a poisoned lock is refused.
-/

namespace Triage

/-- The lock of a key: how many calls have fetched it, whether one holds it, and whether one broke
off while holding it. -/
structure KeyLock where
  handles : Nat := 0
  held : Bool := false
  poisoned : Bool := false
deriving DecidableEq, Repr, Inhabited

/-- The locks in use. -/
structure LockTable where
  locks : KeyMap .issue KeyLock := ∅
deriving DecidableEq, Inhabited

namespace LockTable

/-- The number of locks in use. -/
def tracked (t : LockTable) : Nat := t.locks.size

/-- The lock of a key; a fresh one if there is none. -/
def lock (t : LockTable) (key : IssueKey) : KeyLock := (t.locks.get? key).getD {}

/-- The table with another lock for a key. -/
def set (t : LockTable) (key : IssueKey) (l : KeyLock) : LockTable := ⟨t.locks.insert key l⟩

/-- A call fetches the lock. -/
def fetch (t : LockTable) (key : IssueKey) : LockTable :=
  let l := t.lock key
  t.set key { l with handles := l.handles + 1 }

/-- Whether a call holds the lock. -/
def isHeld (t : LockTable) (key : IssueKey) : Bool := (t.lock key).held

/-- Whether a call broke off while holding the lock. -/
def isPoisoned (t : LockTable) (key : IssueKey) : Bool := (t.lock key).poisoned

/-- A call that has fetched the lock takes it. -/
def take (t : LockTable) (key : IssueKey) : LockTable :=
  t.set key { t.lock key with held := true }

/-- The holder has done its work. -/
def release (t : LockTable) (key : IssueKey) : LockTable :=
  t.set key { t.lock key with held := false }

/-- A call that is done drops its handle, and the last one removes the lock. -/
def finish (t : LockTable) (key : IssueKey) : LockTable :=
  let l := t.lock key
  if l.handles ≤ 1 then ⟨t.locks.erase key⟩ else t.set key { l with handles := l.handles - 1 }

/-- A call that met a poisoned lock drops its handle. -/
def refuse (t : LockTable) (key : IssueKey) : LockTable :=
  let l := t.lock key
  t.set key { l with handles := l.handles - 1 }

/-- The holder breaks off. -/
def abandon (t : LockTable) (key : IssueKey) : LockTable :=
  let l := t.lock key
  t.set key { handles := l.handles - 1, held := false, poisoned := true }

/-- A call fetches the lock and takes it unless it is poisoned; the answer tells which. -/
def enter (t : LockTable) (key : IssueKey) : Bool × LockTable :=
  let t := t.fetch key
  if t.isPoisoned key then (false, t.refuse key) else (true, t.take key)

/-- The holder has done its work and is done. -/
def leave (t : LockTable) (key : IssueKey) : LockTable := (t.release key).finish key

end LockTable

end Triage
