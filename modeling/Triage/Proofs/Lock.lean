import Mathlib.Tactic.SplitIfs
import Triage.Lock
import Triage.Proofs.KeyMap

/-!
# What entering and leaving does to the locks

Only the lock of the key that is entered or left changes, and no lock becomes poisoned but the one
whose holder breaks off.
-/

namespace Triage

namespace LockTable

variable {t : LockTable} {key key' : IssueKey}

/-- The table after a call that entered the lock of a key and, unless it was poisoned, left it. -/
def passed (t : LockTable) (key : IssueKey) : LockTable :=
  if (t.enter key).1 then (t.enter key).2.leave key else (t.enter key).2

theorem lock_set (t : LockTable) (key key' : IssueKey) (l : KeyLock) :
    (t.set key l).lock key' = if key = key' then l else t.lock key' := by
  unfold lock set
  rw [KeyMap.get?_insert]
  split_ifs <;> rfl

@[simp]
theorem lock_set_self (t : LockTable) (key : IssueKey) (l : KeyLock) :
    (t.set key l).lock key = l := by
  rw [lock_set, if_pos rfl]

theorem lock_set_of_ne (h : key ≠ key') (l : KeyLock) : (t.set key l).lock key' = t.lock key' := by
  rw [lock_set, if_neg h]

theorem lock_finish_of_ne (h : key ≠ key') : (t.finish key).lock key' = t.lock key' := by
  simp only [finish]
  split_ifs
  · simp [lock, KeyMap.get?_erase, h]
  · exact lock_set_of_ne h _

theorem enter_fst (t : LockTable) (key : IssueKey) : (t.enter key).1 = !t.isPoisoned key := by
  have hp : (t.fetch key).isPoisoned key = t.isPoisoned key := by simp [fetch, isPoisoned]
  simp only [enter, hp]
  split_ifs with h <;> simp [h]

theorem lock_enter_of_ne (h : key ≠ key') : (t.enter key).2.lock key' = t.lock key' := by
  simp only [enter]
  split_ifs
  · simp [refuse, fetch, lock_set_of_ne h]
  · simp [take, fetch, lock_set_of_ne h]

theorem lock_leave_of_ne (h : key ≠ key') : (t.leave key).lock key' = t.lock key' := by
  rw [leave, lock_finish_of_ne h, release, lock_set_of_ne h]

theorem isPoisoned_enter (t : LockTable) (key key' : IssueKey) :
    (t.enter key).2.isPoisoned key' = t.isPoisoned key' := by
  by_cases h : key = key'
  · subst h
    simp only [enter]
    split_ifs <;> simp [isPoisoned, refuse, take, fetch]
  · rw [isPoisoned, lock_enter_of_ne h, isPoisoned]

theorem isHeld_enter_self (h : t.isPoisoned key = false) : (t.enter key).2.isHeld key = true := by
  have hp : (t.fetch key).isPoisoned key = false := by simpa [fetch, isPoisoned] using h
  simp [enter, hp, take, isHeld]

theorem isHeld_enter_of_ne (h : key ≠ key') : (t.enter key).2.isHeld key' = t.isHeld key' := by
  rw [isHeld, lock_enter_of_ne h, isHeld]

theorem isHeld_enter_of_isPoisoned (h : t.isPoisoned key = true) (key' : IssueKey) :
    (t.enter key).2.isHeld key' = t.isHeld key' := by
  by_cases hk : key = key'
  · subst hk
    have hp : (t.fetch key).isPoisoned key = true := by simpa [fetch, isPoisoned] using h
    rw [enter, if_pos hp]
    simp [refuse, fetch, isHeld]
  · exact isHeld_enter_of_ne hk

theorem isHeld_leave_self (t : LockTable) (key : IssueKey) : (t.leave key).isHeld key = false := by
  simp only [leave, finish]
  split_ifs
  · simp [isHeld, lock, KeyMap.get?_erase]
  · simp [isHeld, release]

theorem isHeld_leave_of_ne (h : key ≠ key') : (t.leave key).isHeld key' = t.isHeld key' := by
  rw [isHeld, lock_leave_of_ne h, isHeld]

theorem isPoisoned_leave (h : t.isPoisoned key = false) (key' : IssueKey) :
    (t.leave key).isPoisoned key' = t.isPoisoned key' := by
  by_cases hk : key = key'
  · subst hk
    rw [h]
    simp only [leave, finish]
    split_ifs
    · simp [isPoisoned, lock, KeyMap.get?_erase]
    · simpa [isPoisoned, release] using h
  · rw [isPoisoned, lock_leave_of_ne hk, isPoisoned]

theorem isPoisoned_abandon (t : LockTable) (key key' : IssueKey) :
    (t.abandon key).isPoisoned key' = true ↔ t.isPoisoned key' = true ∨ key' = key := by
  rw [isPoisoned, abandon, lock_set]
  split_ifs with h
  · simp [h]
  · simp [isPoisoned, Ne.symm h]

theorem isHeld_abandon (t : LockTable) (key key' : IssueKey) :
    (t.abandon key).isHeld key' = true ↔ t.isHeld key' = true ∧ key' ≠ key := by
  rw [isHeld, abandon, lock_set]
  split_ifs with h
  · simp [h]
  · simp [isHeld, Ne.symm h]

theorem isPoisoned_passed (h : t.isPoisoned key = false) (key' : IssueKey) :
    (t.passed key).isPoisoned key' = t.isPoisoned key' := by
  unfold passed
  split_ifs
  · rw [isPoisoned_leave (by rw [isPoisoned_enter, h]), isPoisoned_enter]
  · exact isPoisoned_enter t key key'

theorem isHeld_passed_self (h : t.isPoisoned key = false) : (t.passed key).isHeld key = false := by
  rw [passed, enter_fst, h]
  exact isHeld_leave_self _ _

theorem isHeld_passed_of_ne (h : key ≠ key') : (t.passed key).isHeld key' = t.isHeld key' := by
  unfold passed
  split_ifs
  · rw [isHeld_leave_of_ne h, isHeld_enter_of_ne h]
  · exact isHeld_enter_of_ne h

end LockTable

end Triage
