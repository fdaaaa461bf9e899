import Mathlib.Data.Finset.Card
import Mathlib.Logic.Function.Basic
import Triage.Proofs.Lock

/-!
# Calls that race for locks

Calls fetch the locks of their keys, take them, work and finish, and their steps come in any order.
Here each lock is a thing of its own: a call keeps the one that it has fetched, also when the table
has another one for its key by then.  This never happens, since the handles on a lock are counted
exactly; so the calls on one key work one at a time, and the table is one of locks by key.
-/

namespace Triage

/-- How far a call on a key has come; `n` is the lock that it has fetched. -/
inductive LockStage
  | idle
  | waiting (n : Nat)
  | inside (n : Nat)
  | done (n : Nat)
  | returned
  | refused
  | broken (n : Nat)
deriving DecidableEq

/-- The lock on which the call has a handle. -/
def LockStage.handle? : LockStage → Option Nat
  | .waiting n | .inside n | .done n => some n
  | _ => none

/-- Calls under way: which lock the table has for each key, the locks that were made so far, and how
far each call has come. -/
structure LockRace (ι : Type) where
  table : KeyMap .issue Nat := ∅
  locks : Nat → KeyLock := fun _ => {}
  made : Nat := 0
  stage : ι → LockStage := fun _ => .idle

namespace LockRace

variable {ι : Type}

/-! ## Steps -/

/-- A new lock in the table. -/
def alloc (r : LockRace ι) (k : IssueKey) : LockRace ι :=
  { r with
    table := r.table.insert k r.made
    locks := Function.update r.locks r.made {}
    made := r.made + 1 }

theorem get?_alloc (r : LockRace ι) (k k' : IssueKey) :
    (r.alloc k).table.get? k' = if k = k' then some r.made else r.table.get? k' :=
  KeyMap.get?_insert r.table k k' r.made

theorem locks_alloc (r : LockRace ι) (k : IssueKey) (n : Nat) :
    (r.alloc k).locks n = if n = r.made then {} else r.locks n :=
  Function.update_apply r.locks r.made {} n

/-- The entry of the key is removed if there is no handle on its lock. -/
def prune (r : LockRace ι) (k : IssueKey) : LockRace ι :=
  match r.table.get? k with
  | some n => if (r.locks n).handles = 0 then { r with table := r.table.erase k } else r
  | none => r

section Steps

variable [DecidableEq ι]

/-- A call goes on, and a lock becomes another. -/
def put (r : LockRace ι) (i : ι) (b : LockStage) (n : Nat) (l : KeyLock) : LockRace ι :=
  { r with locks := Function.update r.locks n l, stage := Function.update r.stage i b }

theorem stage_put (r : LockRace ι) (i j : ι) (b : LockStage) (n : Nat) (l : KeyLock) :
    (r.put i b n l).stage j = if j = i then b else r.stage j :=
  Function.update_apply r.stage i b j

theorem locks_put (r : LockRace ι) (i : ι) (b : LockStage) (m n : Nat) (l : KeyLock) :
    (r.put i b n l).locks m = if m = n then l else r.locks m :=
  Function.update_apply r.locks n l m

/-- A call gets a handle on the lock of its key, which is made if there is none. -/
def fetch (r : LockRace ι) (k : IssueKey) (i : ι) : LockRace ι :=
  let n := (r.table.get? k).getD r.made
  let r := if r.table.contains k then r else r.alloc k
  r.put i (.waiting n) n { r.locks n with handles := (r.locks n).handles + 1 }

/-- A call takes the lock, unless another one has it; a poisoned lock refuses it. -/
def take (r : LockRace ι) (i : ι) (n : Nat) : LockRace ι :=
  let l := r.locks n
  if l.held then r
  else if l.poisoned then r.put i .refused n { l with handles := l.handles - 1 }
  else r.put i (.inside n) n { l with held := true }

/-- The section of a call ends: it gives the lock back, or breaks off and drops its handle. -/
def endSection (r : LockRace ι) (i : ι) (n : Nat) (breaks : Bool) : LockRace ι :=
  let l := r.locks n
  if breaks then r.put i (.broken n) n { handles := l.handles - 1, held := false, poisoned := true }
  else r.put i (.done n) n { l with held := false }

/-- A call drops its handle, and removes the entry of its key if there is no other. -/
def finish (r : LockRace ι) (k : IssueKey) (i : ι) (n : Nat) : LockRace ι :=
  (r.put i .returned n { r.locks n with handles := (r.locks n).handles - 1 }).prune k

/-- The next step of a call; if this is the end of its section, `breaks` tells whether it breaks
off. -/
def step (key : ι → IssueKey) (r : LockRace ι) (turn : ι × Bool) : LockRace ι :=
  match r.stage turn.1 with
  | .idle => r.fetch (key turn.1) turn.1
  | .waiting n => r.take turn.1 n
  | .inside n => r.endSection turn.1 n turn.2
  | .done n => r.finish (key turn.1) turn.1 n
  | .returned | .refused | .broken _ => r

/-- The race after the turns. -/
def run (key : ι → IssueKey) (r : LockRace ι) (turns : List (ι × Bool)) : LockRace ι :=
  turns.foldl (step key) r

/-- What the next step of a call may do. -/
inductive Turn (key : ι → IssueKey) (r : LockRace ι) (i : ι) (breaks : Bool) : LockRace ι → Prop
  | fetch (hi : r.stage i = .idle) : Turn key r i breaks (r.fetch (key i) i)
  | wait {n : Nat} (hi : r.stage i = .waiting n) (hheld : (r.locks n).held = true) :
      Turn key r i breaks r
  | refuse {n : Nat} (hi : r.stage i = .waiting n) (hheld : (r.locks n).held = false)
      (hpoisoned : (r.locks n).poisoned = true) : Turn key r i breaks
        (r.put i .refused n { r.locks n with handles := (r.locks n).handles - 1 })
  | enter {n : Nat} (hi : r.stage i = .waiting n) (hheld : (r.locks n).held = false)
      (hpoisoned : (r.locks n).poisoned = false) : Turn key r i breaks
        (r.put i (.inside n) n { r.locks n with held := true })
  | abandon {n : Nat} (hi : r.stage i = .inside n) (hbreaks : breaks = true) : Turn key r i breaks
        (r.put i (.broken n) n
          { handles := (r.locks n).handles - 1, held := false, poisoned := true })
  | release {n : Nat} (hi : r.stage i = .inside n) (hbreaks : breaks = false) : Turn key r i breaks
        (r.put i (.done n) n { r.locks n with held := false })
  | finish {n : Nat} (hi : r.stage i = .done n) : Turn key r i breaks (r.finish (key i) i n)
  | rest (hi : r.stage i = .returned ∨ r.stage i = .refused ∨ ∃ n, r.stage i = .broken n) :
      Turn key r i breaks r

theorem turn_step (key : ι → IssueKey) (r : LockRace ι) (i : ι) (breaks : Bool) :
    r.Turn key i breaks (r.step key (i, breaks)) := by
  unfold step
  dsimp only
  cases hi : r.stage i with
  | idle => exact .fetch hi
  | waiting n =>
    unfold take
    dsimp only
    split_ifs with hheld hpoisoned
    · exact .wait hi hheld
    · exact .refuse hi (Bool.not_eq_true _ ▸ hheld) hpoisoned
    · exact .enter hi (Bool.not_eq_true _ ▸ hheld) (Bool.not_eq_true _ ▸ hpoisoned)
  | inside n =>
    unfold endSection
    dsimp only
    split_ifs with hbreaks
    · exact .abandon hi hbreaks
    · exact .release hi (Bool.not_eq_true _ ▸ hbreaks)
  | done n => exact .finish hi
  | returned => exact .rest (.inl hi)
  | refused => exact .rest (.inr (.inl hi))
  | broken n => exact .rest (.inr (.inr ⟨n, hi⟩))

end Steps

/-! ## Handles -/

/-- Whether `c` calls have a handle on the lock. -/
def Counts (stage : ι → LockStage) (n c : Nat) : Prop :=
  ∃ s : Finset ι, (∀ i, i ∈ s ↔ (stage i).handle? = some n) ∧ s.card = c

section Counts

variable {stage : ι → LockStage} {i j : ι} {b : LockStage} {n c : Nat}

theorem counts_zero (h : ∀ i, (stage i).handle? ≠ some n) : Counts stage n 0 :=
  ⟨∅, by simp [h], rfl⟩

theorem Counts.pos (h : Counts stage n c) (hi : (stage i).handle? = some n) : 0 < c := by
  obtain ⟨s, hs, rfl⟩ := h
  exact Finset.card_pos.2 ⟨i, (hs i).2 hi⟩

variable [DecidableEq ι]

theorem handle?_update (stage : ι → LockStage) (i j : ι) (b : LockStage) :
    (Function.update stage i b j).handle? = if j = i then b.handle? else (stage j).handle? := by
  by_cases h : j = i
  · subst h
    simp
  · simp [h]

theorem Counts.stay (h : Counts stage n c)
    (hb : b.handle? = some n ↔ (stage i).handle? = some n) :
    Counts (Function.update stage i b) n c := by
  obtain ⟨s, hs, rfl⟩ := h
  refine ⟨s, fun j => ?_, rfl⟩
  rw [handle?_update, hs]
  split_ifs with hj
  · rw [hb, hj]
  · rfl

theorem Counts.gain (h : Counts stage n c) (hi : (stage i).handle? ≠ some n)
    (hb : b.handle? = some n) : Counts (Function.update stage i b) n (c + 1) := by
  obtain ⟨s, hs, rfl⟩ := h
  refine ⟨insert i s, fun j => ?_, Finset.card_insert_of_notMem fun hin => hi ((hs i).1 hin)⟩
  rw [handle?_update, Finset.mem_insert, hs]
  split_ifs with hj
  · simp [hj, hb]
  · simp [hj]

theorem Counts.drop (h : Counts stage n c) (hi : (stage i).handle? = some n)
    (hb : b.handle? ≠ some n) : Counts (Function.update stage i b) n (c - 1) := by
  obtain ⟨s, hs, rfl⟩ := h
  refine ⟨s.erase i, fun j => ?_, Finset.card_erase_of_mem ((hs i).2 hi)⟩
  rw [handle?_update, Finset.mem_erase, hs]
  split_ifs with hj
  · simp [hj, hb]
  · simp [hj]

end Counts

/-! ## The invariant -/

/-- Whether every call that has a handle has it on the lock which the table has for its key, the
handles are counted, and the locks tell which calls hold them and which broke off. -/
structure Sound (key : ι → IssueKey) (r : LockRace ι) : Prop where
  made : ∀ k n, r.table.get? k = some n → n < r.made
  owner : ∀ k k' n, r.table.get? k = some n → r.table.get? k' = some n → k = k'
  live : ∀ i n, (r.stage i).handle? = some n → r.table.get? (key i) = some n
  handles : ∀ n, Counts r.stage n (r.locks n).handles
  held : ∀ n, (r.locks n).held = true ↔ ∃ i, r.stage i = .inside n
  alone : ∀ i j n, r.stage i = .inside n → r.stage j = .inside n → i = j
  poisoned : ∀ n, (r.locks n).poisoned = true ↔ ∃ i, r.stage i = .broken n
  broken : ∀ i n, r.stage i = .broken n → n < r.made ∧ ∀ k, r.table.get? k = some n → k = key i

/-- Whether every lock in the table has a handle on it or is poisoned. -/
def InUse (r : LockRace ι) : Prop :=
  ∀ k n, r.table.get? k = some n → (r.locks n).handles ≠ 0 ∨ (r.locks n).poisoned = true

variable {key : ι → IssueKey} {r r' : LockRace ι} {i j : ι} {breaks : Bool} {k : IssueKey} {n : Nat}
  {b : LockStage} {l : KeyLock}

theorem Sound.start : Sound key ({} : LockRace ι) where
  made _ _ h := nomatch h
  owner _ _ _ h := nomatch h
  live _ _ h := nomatch h
  handles _ := counts_zero fun _ => nofun
  held _ := ⟨nofun, fun ⟨_, h⟩ => nomatch h⟩
  alone _ _ _ h := nomatch h
  poisoned _ := ⟨nofun, fun ⟨_, h⟩ => nomatch h⟩
  broken _ _ h := nomatch h

theorem Sound.handle?_ne_made (h : r.Sound key) (i : ι) : (r.stage i).handle? ≠ some r.made :=
  fun hi => Nat.lt_irrefl _ (h.made _ _ (h.live i _ hi))

theorem Sound.alloc (h : r.Sound key) (hk : r.table.get? k = none) : (r.alloc k).Sound key where
  made := by
    intro k' n hn
    change n < r.made + 1
    rw [get?_alloc] at hn
    split_ifs at hn
    · cases hn
      exact Nat.lt_succ_self _
    · exact Nat.lt_succ_of_lt (h.made k' n hn)
  owner := by
    intro k₁ k₂ n h₁ h₂
    rw [get?_alloc] at h₁ h₂
    split_ifs at h₁ h₂ with hk₁ hk₂ hk₂
    · exact hk₁.symm.trans hk₂
    · cases h₁
      exact absurd (h.made k₂ _ h₂) (Nat.lt_irrefl _)
    · cases h₂
      exact absurd (h.made k₁ _ h₁) (Nat.lt_irrefl _)
    · exact h.owner k₁ k₂ n h₁ h₂
  live := by
    intro i n hi
    have hn := h.live i n hi
    rw [get?_alloc, if_neg]
    · exact hn
    · rintro rfl
      cases hk.symm.trans hn
  handles := by
    intro n
    rw [locks_alloc]
    split_ifs with hn
    · exact counts_zero fun i => hn ▸ h.handle?_ne_made i
    · exact h.handles n
  held := by
    intro n
    rw [locks_alloc]
    split_ifs with hn
    · refine ⟨nofun, fun ⟨i, hi⟩ => absurd ?_ (h.handle?_ne_made i)⟩
      rw [show r.stage i = .inside n from hi, LockStage.handle?, hn]
    · exact h.held n
  alone := h.alone
  poisoned := by
    intro n
    rw [locks_alloc]
    split_ifs with hn
    · exact ⟨nofun, fun ⟨i, hi⟩ => absurd (h.broken i _ hi).1 (Nat.not_lt.2 hn.ge)⟩
    · exact h.poisoned n
  broken := by
    intro i n hi
    refine ⟨Nat.lt_succ_of_lt (h.broken i n hi).1, fun k' hk' => ?_⟩
    rw [get?_alloc] at hk'
    split_ifs at hk'
    · cases hk'
      exact absurd (h.broken i _ hi).1 (Nat.lt_irrefl _)
    · exact (h.broken i n hi).2 k' hk'

theorem exists_ne_iff {stage : ι → LockStage} {c : LockStage} (hi : stage i ≠ c) :
    (∃ j, j ≠ i ∧ stage j = c) ↔ ∃ j, stage j = c :=
  exists_congr fun _ => and_iff_right_of_imp fun hj hji => hi (hji ▸ hj)

theorem Sound.exists_other_inside_iff (h : r.Sound key) (i : ι) (n : Nat) :
    (∃ j, j ≠ i ∧ r.stage j = .inside n) ↔ (r.locks n).held = true ∧ r.stage i ≠ .inside n := by
  rw [h.held]
  constructor
  · rintro ⟨j, hji, hj⟩
    exact ⟨⟨j, hj⟩, fun hi => hji (h.alone j i n hj hi)⟩
  · rintro ⟨⟨j, hj⟩, hi⟩
    exact ⟨j, fun hji => hi (hji ▸ hj), hj⟩

/-- An entry without handles is removed. -/
theorem Sound.prune (h : r.Sound key) (k : IssueKey) : (r.prune k).Sound key := by
  unfold LockRace.prune
  split
  case h_2 => exact h
  case h_1 n hn =>
    split_ifs with hzero
    case neg => exact h
    have hget {k' : IssueKey} {m : Nat} (hk' : (r.table.erase k).get? k' = some m) :
        r.table.get? k' = some m := by
      rw [KeyMap.get?_erase] at hk'
      split_ifs at hk'
      exact hk'
    refine ⟨fun k' m hk' => h.made k' m (hget hk'),
      fun k₁ k₂ m h₁ h₂ => h.owner k₁ k₂ m (hget h₁) (hget h₂), fun i m hi => ?_, h.handles, h.held,
      h.alone, h.poisoned, fun i m hi => ⟨(h.broken i m hi).1,
        fun k' hk' => (h.broken i m hi).2 k' (hget hk')⟩⟩
    have hm := h.live i m hi
    change (r.table.erase k).get? (key i) = some m
    rw [KeyMap.get?_erase, if_neg]
    · exact hm
    · rintro rfl
      obtain rfl : n = m := Option.some.inj (hn.symm.trans hm)
      exact Nat.ne_of_gt ((h.handles n).pos hi) hzero

/-! ## Entries in use -/

/-- Whether every other lock in the table has a handle on it or is poisoned. -/
def InUseBut (r : LockRace ι) (n : Nat) : Prop :=
  ∀ k m, r.table.get? k = some m → m ≠ n → (r.locks m).handles ≠ 0 ∨ (r.locks m).poisoned = true

theorem InUse.but (h : r.InUse) (n : Nat) : r.InUseBut n := fun k m hk _ => h k m hk

theorem InUseBut.inUse (h : r.InUseBut n)
    (hn : (r.locks n).handles ≠ 0 ∨ (r.locks n).poisoned = true) : r.InUse := by
  intro k m hk
  by_cases hm : m = n
  · exact hm ▸ hn
  · exact h k m hk hm

theorem InUse.alloc (h : r.InUse) (k : IssueKey) : (r.alloc k).InUseBut r.made := by
  intro k' m hk' hm
  rw [locks_alloc, if_neg hm]
  rw [get?_alloc] at hk'
  split_ifs at hk'
  · exact absurd (Option.some.inj hk').symm hm
  · exact h k' m hk'

theorem InUseBut.prune (h : r.InUseBut n) (hn : r.table.get? k = some n)
    (howner : ∀ k', r.table.get? k' = some n → k' = k) : (r.prune k).InUse := by
  unfold LockRace.prune
  rw [hn]
  dsimp only
  split_ifs with hzero
  · intro k' m hk'
    change (r.table.erase k).get? k' = some m at hk'
    rw [KeyMap.get?_erase] at hk'
    split_ifs at hk' with hkk
    exact h k' m hk' fun hm => hkk (howner k' (hm ▸ hk')).symm
  · exact h.inUse (.inl hzero)

/-! ## Steps keep the invariant -/

variable [DecidableEq ι]

theorem exists_update_iff (stage : ι → LockStage) (i : ι) (b c : LockStage) :
    (∃ j, Function.update stage i b j = c) ↔ b = c ∨ ∃ j, j ≠ i ∧ stage j = c := by
  constructor
  · rintro ⟨j, hj⟩
    by_cases hji : j = i
    · rw [hji, Function.update_self] at hj
      exact .inl hj
    · rw [Function.update_of_ne hji] at hj
      exact .inr ⟨j, hji, hj⟩
  · rintro (rfl | ⟨j, hji, hj⟩)
    · exact ⟨i, Function.update_self ..⟩
    · exact ⟨j, (Function.update_of_ne hji ..).trans hj⟩

/-- A call goes on with the lock that the table has for its key, which becomes another. -/
theorem Sound.put (h : r.Sound key) (hn : r.table.get? (key i) = some n)
    (hgoing : ∀ m, r.stage i ≠ .broken m) (hb : ∀ m, b.handle? = some m ∨ b = .broken m → m = n)
    (hhandles : Counts (Function.update r.stage i b) n l.handles)
    (hheld : l.held = true ↔ b = .inside n ∨ (r.locks n).held = true ∧ r.stage i ≠ .inside n)
    (halone : b = .inside n → (r.locks n).held = false)
    (hpoisoned : l.poisoned = true ↔ b = .broken n ∨ (r.locks n).poisoned = true) :
    (r.put i b n l).Sound key := by
  have hself (m : Nat) (hi : (r.stage i).handle? = some m) : m = n :=
    Option.some.inj ((h.live i m hi).symm.trans hn)
  refine ⟨h.made, h.owner, fun j m hj => ?_, fun m => ?_, fun m => ?_, fun j j' m hj hj' => ?_,
    fun m => ?_, fun j m hj => ?_⟩
  · rw [stage_put] at hj
    split_ifs at hj with hji
    · rw [hb m (.inl hj), hji]
      exact hn
    · exact h.live j m hj
  · rw [locks_put]
    split_ifs with hm
    · rw [hm]
      exact hhandles
    · exact (h.handles m).stay ⟨fun hbm => absurd (hb m (.inl hbm)) hm,
        fun hi => absurd (hself m hi) hm⟩
  · refine Iff.trans ?_ (exists_update_iff r.stage i b (.inside m)).symm
    rw [locks_put]
    split_ifs with hm
    · rw [hm, hheld, h.exists_other_inside_iff]
    · have hi : r.stage i ≠ .inside m := fun hi => hm (hself m (congrArg LockStage.handle? hi))
      have hbm : b ≠ .inside m := fun hbm => hm (hb m (.inl (congrArg LockStage.handle? hbm)))
      rw [h.held, exists_ne_iff hi, or_iff_right hbm]
  · have hfree (hbm : b = .inside m) (j : ι) : r.stage j ≠ .inside m := by
      obtain rfl : m = n := hb m (.inl (congrArg LockStage.handle? hbm))
      intro hj
      exact absurd ((halone hbm).symm.trans ((h.held m).2 ⟨j, hj⟩)) nofun
    rw [stage_put] at hj hj'
    split_ifs at hj hj' with hji hji' hji'
    · exact hji.trans hji'.symm
    · exact absurd hj' (hfree hj j')
    · exact absurd hj (hfree hj' j)
    · exact h.alone j j' m hj hj'
  · refine Iff.trans ?_ (exists_update_iff r.stage i b (.broken m)).symm
    rw [exists_ne_iff (hgoing m), ← h.poisoned, locks_put]
    split_ifs with hm
    · rw [hm, hpoisoned]
    · have hbm : b ≠ .broken m := fun hbm => hm (hb m (.inr hbm))
      rw [or_iff_right hbm]
  · rw [stage_put] at hj
    split_ifs at hj with hji
    · rw [hb m (.inr hj), hji]
      exact ⟨h.made _ n hn, fun k hk => h.owner k (key i) n hk hn⟩
    · exact h.broken j m hj

/-- A call gets a handle on the lock that the table has for its key. -/
theorem Sound.wait (h : r.Sound key) (hi : r.stage i = .idle)
    (hn : r.table.get? (key i) = some n) :
    (r.put i (.waiting n) n { r.locks n with handles := (r.locks n).handles + 1 }).Sound key := by
  refine h.put hn (by simp [hi]) ?_ ((h.handles n).gain (by simp [hi, LockStage.handle?]) rfl) ?_
    nofun ?_
  · rintro m (hm | hm)
    · exact (Option.some.inj hm).symm
    · cases hm
  · simp [hi]
  · simp

theorem Sound.fetch (h : r.Sound key) (hi : r.stage i = .idle) :
    (r.fetch (key i) i).Sound key := by
  unfold LockRace.fetch KeyMap.contains
  rcases hn : r.table.get? (key i) with _ | n
  · exact (h.alloc hn).wait hi (KeyMap.get?_insert_self ..)
  · exact h.wait hi hn

theorem Sound.turn (h : r.Sound key) (ht : r.Turn key i breaks r') : r'.Sound key := by
  cases ht with
  | fetch hi => exact h.fetch hi
  | wait | rest => exact h
  | refuse hi =>
    have hhandle := congrArg LockStage.handle? hi
    refine h.put (h.live i _ hhandle) ?_ ?_ ((h.handles _).drop hhandle nofun) ?_ nofun ?_
    · simp [hi]
    · simp [LockStage.handle?]
    · simp [hi]
    · simp
  | enter hi hheld =>
    have hhandle := congrArg LockStage.handle? hi
    refine h.put (h.live i _ hhandle) ?_ ?_ ((h.handles _).stay ?_) ?_ (fun _ => hheld) ?_
    · simp [hi]
    · simp [LockStage.handle?, eq_comm]
    · rw [hhandle]; rfl
    · simp
    · simp
  | abandon hi =>
    have hhandle := congrArg LockStage.handle? hi
    refine h.put (h.live i _ hhandle) ?_ ?_ ((h.handles _).drop hhandle nofun) ?_ nofun ?_
    · simp [hi]
    · simp [LockStage.handle?, eq_comm]
    · simp [hi]
    · simp
  | release hi =>
    have hhandle := congrArg LockStage.handle? hi
    refine h.put (h.live i _ hhandle) ?_ ?_ ((h.handles _).stay ?_) ?_ nofun ?_
    · simp [hi]
    · simp [LockStage.handle?, eq_comm]
    · rw [hhandle]; rfl
    · simp [hi]
    · simp
  | finish hi =>
    have hhandle := congrArg LockStage.handle? hi
    refine Sound.prune ?_ (key i)
    refine h.put (h.live i _ hhandle) ?_ ?_ ((h.handles _).drop hhandle nofun) ?_ nofun ?_
    · simp [hi]
    · simp [LockStage.handle?]
    · simp [hi]
    · simp

/-! ## Steps keep the entries in use -/

theorem InUseBut.put (h : r.InUseBut n) (i : ι) (b : LockStage) (l : KeyLock) :
    (r.put i b n l).InUseBut n := by
  intro k m hk hm
  rw [locks_put, if_neg hm]
  exact h k m hk hm

theorem InUse.put (h : r.InUse) (hl : l.handles ≠ 0 ∨ l.poisoned = true) (i : ι) (b : LockStage) :
    (r.put i b n l).InUse := by
  refine ((h.but n).put i b l).inUse ?_
  rwa [locks_put, if_pos rfl]

theorem InUse.fetch (h : r.InUse) (k : IssueKey) (i : ι) : (r.fetch k i).InUse := by
  unfold LockRace.fetch KeyMap.contains
  rcases r.table.get? k with _ | n
  · refine ((h.alloc k).put i _ _).inUse (.inl ?_)
    simp [LockRace.put]
  · exact h.put (.inl (Nat.succ_ne_zero _)) i _

theorem InUse.turn (h : r.InUse) (hr : r.Sound key) (ht : r.Turn key i breaks r') : r'.InUse := by
  have hpos {n : Nat} (hi : (r.stage i).handle? = some n) : (r.locks n).handles ≠ 0 :=
    Nat.ne_of_gt ((hr.handles n).pos hi)
  cases ht with
  | fetch => exact h.fetch (key i) i
  | wait | rest => exact h
  | refuse _ _ hpoisoned =>
    refine h.put ?_ i _
    exact .inr hpoisoned
  | enter hi | release hi =>
    refine h.put ?_ i _
    exact .inl (hpos (congrArg LockStage.handle? hi))
  | abandon => exact h.put (.inr rfl) i _
  | finish hi =>
    have hn := hr.live i _ (congrArg LockStage.handle? hi)
    exact ((h.but _).put i .returned _).prune hn fun k hk => hr.owner k (key i) _ hk hn

end LockRace

end Triage
