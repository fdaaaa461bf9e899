import Triage.Proofs.Lock.Race

/-!
# What a race for locks comes to

The calls on one key work one at a time, and each step of theirs is a step of the table of locks by
key.  A poisoned lock refuses every later call on its key, unless it is removed: this takes a call
that was done with its section, but not yet with the lock, when another one broke off.
-/

namespace Triage

namespace LockTable

/-- The table after the next step of a call on the key that has come so far. -/
def turn (t : LockTable) (k : IssueKey) (breaks : Bool) : LockStage → LockTable
  | .idle => t.fetch k
  | .waiting _ => if t.isHeld k then t else if t.isPoisoned k then t.refuse k else t.take k
  | .inside _ => if breaks then t.abandon k else t.release k
  | .done _ => t.finish k
  | .returned | .refused | .broken _ => t

variable {t : LockTable} {k k' : IssueKey}

theorem lock_turn_of_ne (h : k ≠ k') (breaks : Bool) (s : LockStage) :
    (t.turn k breaks s).lock k' = t.lock k' := by
  cases s with
  | idle => exact lock_set_of_ne h _
  | waiting =>
    dsimp only [turn]
    split_ifs
    · rfl
    · exact lock_set_of_ne h _
    · exact lock_set_of_ne h _
  | inside =>
    dsimp only [turn]
    split_ifs
    · exact lock_set_of_ne h _
    · exact lock_set_of_ne h _
  | done => exact lock_finish_of_ne h
  | returned | refused | broken => rfl

theorem set_set (t : LockTable) (k : IssueKey) (l l' : KeyLock) :
    (t.set k l).set k l' = t.set k l' := by
  refine congrArg LockTable.mk (KeyMap.ext_get? fun k' => ?_)
  rw [KeyMap.get?_insert, KeyMap.get?_insert]
  split_ifs with h
  · rfl
  · exact KeyMap.get?_insert_of_ne _ h _

theorem erase_set (t : LockTable) (k : IssueKey) (l : KeyLock) :
    (t.set k l).locks.erase k = t.locks.erase k := by
  refine KeyMap.ext_get? fun k' => ?_
  rw [KeyMap.get?_erase, KeyMap.get?_erase]
  split_ifs with h
  · rfl
  · exact KeyMap.get?_insert_of_ne _ h _

end LockTable

namespace LockRace

variable {ι : Type} {key : ι → IssueKey} {r r' : LockRace ι} {i j : ι} {breaks : Bool}
  {k k' : IssueKey} {m n : Nat} {b : LockStage} {l : KeyLock}

/-! ## One at a time -/

theorem Sound.eq_of_inside (h : r.Sound key) (hkey : key i = key j) (hi : r.stage i = .inside n)
    (hj : r.stage j = .inside m) : i = j := by
  have hn := h.live i n (congrArg LockStage.handle? hi)
  have hm := h.live j m (congrArg LockStage.handle? hj)
  rw [hkey] at hn
  obtain rfl : n = m := Option.some.inj (hn.symm.trans hm)
  exact h.alone i j n hi hj

/-- The table has an entry for a key as long as a call has a handle on its lock, or a call broke off
with the lock that is there. -/
theorem contains_table_iff (h : r.Sound key) (huse : r.InUse) :
    r.table.contains k = true ↔ ∃ n, r.table.get? k = some n ∧
      ∃ i, key i = k ∧ ((r.stage i).handle? = some n ∨ r.stage i = .broken n) := by
  unfold KeyMap.contains
  rw [Option.isSome_iff_exists]
  constructor
  · rintro ⟨n, hn⟩
    refine ⟨n, hn, ?_⟩
    rcases huse k n hn with hpos | hpoisoned
    · obtain ⟨s, hs, hcard⟩ := h.handles n
      obtain ⟨i, hi⟩ := Finset.card_pos.1 (hcard ▸ Nat.pos_of_ne_zero hpos)
      exact ⟨i, h.owner (key i) k n (h.live i n ((hs i).1 hi)) hn, .inl ((hs i).1 hi)⟩
    · obtain ⟨i, hi⟩ := (h.poisoned n).1 hpoisoned
      exact ⟨i, ((h.broken i n hi).2 k hn).symm, .inr hi⟩
  · rintro ⟨n, hn, -⟩
    exact ⟨n, hn⟩

/-! ## Locks by key -/

/-- The locks by key. -/
def view (r : LockRace ι) : LockTable := ⟨r.table.map r.locks⟩

theorem lock_view (hn : r.table.get? k = some n) : r.view.lock k = r.locks n := by
  rw [LockTable.lock, view, KeyMap.get?_map, hn]
  rfl

theorem view_alloc (h : r.Sound key) (k : IssueKey) : (r.alloc k).view = r.view.set k {} := by
  refine congrArg LockTable.mk (KeyMap.ext_get? fun k' => ?_)
  change ((r.table.insert k r.made).map (Function.update r.locks r.made {})).get? k' =
    ((r.table.map r.locks).insert k {}).get? k'
  rw [KeyMap.get?_map, KeyMap.get?_insert, KeyMap.get?_insert, KeyMap.get?_map]
  split_ifs
  · exact congrArg some (Function.update_self ..)
  · rcases hm : r.table.get? k' with _ | m
    · rfl
    · exact congrArg some (Function.update_of_ne (Nat.ne_of_lt (h.made k' m hm)) ..)

theorem view_prune (hn : r.table.get? k = some n) :
    (r.prune k).view =
      if (r.locks n).handles = 0 then ⟨r.view.locks.erase k⟩ else r.view := by
  unfold prune
  rw [hn]
  dsimp only
  split_ifs
  · refine congrArg LockTable.mk (KeyMap.ext_get? fun k' => ?_)
    change ((r.table.erase k).map r.locks).get? k' = ((r.table.map r.locks).erase k).get? k'
    rw [KeyMap.get?_map, KeyMap.get?_erase, KeyMap.get?_erase, KeyMap.get?_map]
    split_ifs <;> rfl
  · rfl

variable [DecidableEq ι]

theorem view_put (h : r.Sound key) (hn : r.table.get? k = some n) :
    (r.put i b n l).view = r.view.set k l := by
  refine congrArg LockTable.mk (KeyMap.ext_get? fun k' => ?_)
  change (r.table.map (Function.update r.locks n l)).get? k' =
    ((r.table.map r.locks).insert k l).get? k'
  rw [KeyMap.get?_map, KeyMap.get?_insert, KeyMap.get?_map]
  split_ifs with hk
  · rw [← hk, hn]
    exact congrArg some (Function.update_self ..)
  · rcases hm : r.table.get? k' with _ | m
    · rfl
    · have hmn : m ≠ n := fun hmn => hk (h.owner k k' n hn (hmn ▸ hm))
      exact congrArg some (Function.update_of_ne hmn ..)

theorem view_fetch (h : r.Sound key) (k : IssueKey) (i : ι) :
    (r.fetch k i).view = r.view.fetch k := by
  unfold fetch KeyMap.contains
  rcases hn : r.table.get? k with _ | n
  · have hlock : r.view.lock k = {} := by
      rw [LockTable.lock, view, KeyMap.get?_map, hn]
      rfl
    have hnew : (r.alloc k).locks r.made = {} := Function.update_self ..
    refine (view_put (h.alloc hn) (KeyMap.get?_insert_self ..)).trans ?_
    rw [view_alloc h, LockTable.set_set, LockTable.fetch, hlock]
    exact congrArg (fun l => r.view.set k { l with handles := l.handles + 1 }) hnew
  · rw [LockTable.fetch, lock_view hn]
    exact view_put h hn

theorem view_finish (h : r.Sound key) (hn : r.table.get? k = some n) (i : ι) :
    (r.finish k i n).view = r.view.finish k := by
  have hlast : (r.locks n).handles - 1 = 0 ↔ (r.locks n).handles ≤ 1 := Nat.sub_eq_zero_iff_le
  have hprune := view_prune (r := r.put i .returned n { r.locks n with
    handles := (r.locks n).handles - 1 }) hn
  refine hprune.trans ?_
  rw [view_put h hn, LockTable.erase_set]
  simp only [put, Function.update_self, hlast, LockTable.finish, lock_view hn]

/-- Each step is the same one on the locks by key. -/
theorem view_turn (h : r.Sound key) (ht : r.Turn key i breaks r') :
    r'.view = r.view.turn (key i) breaks (r.stage i) := by
  cases ht with
  | fetch hi =>
    rw [hi]
    exact view_fetch h (key i) i
  | wait hi hheld =>
    have hn := h.live i _ (congrArg LockStage.handle? hi)
    simp [hi, LockTable.turn, LockTable.isHeld, lock_view hn, hheld]
  | refuse hi hheld hpoisoned =>
    have hn := h.live i _ (congrArg LockStage.handle? hi)
    rw [view_put h hn]
    simp [hi, LockTable.turn, LockTable.isHeld, LockTable.isPoisoned, LockTable.refuse,
      lock_view hn, hheld, hpoisoned]
  | enter hi hheld hpoisoned =>
    have hn := h.live i _ (congrArg LockStage.handle? hi)
    rw [view_put h hn]
    simp [hi, LockTable.turn, LockTable.isHeld, LockTable.isPoisoned, LockTable.take,
      lock_view hn, hheld, hpoisoned]
  | abandon hi hbreaks =>
    have hn := h.live i _ (congrArg LockStage.handle? hi)
    rw [view_put h hn]
    simp [hi, LockTable.turn, LockTable.abandon, lock_view hn, hbreaks]
  | release hi hbreaks =>
    have hn := h.live i _ (congrArg LockStage.handle? hi)
    rw [view_put h hn]
    simp [hi, LockTable.turn, LockTable.release, lock_view hn, hbreaks]
  | finish hi =>
    rw [hi]
    exact view_finish h (h.live i _ (congrArg LockStage.handle? hi)) i
  | rest hi => rcases hi with hi | hi | ⟨n, hi⟩ <;> rw [hi, LockTable.turn]

/-- A step of a call on one key leaves the locks of the other keys. -/
theorem lock_view_of_ne (h : r.Sound key) (ht : r.Turn key i breaks r') (hk : key i ≠ k) :
    r'.view.lock k = r.view.lock k := by
  rw [view_turn h ht, LockTable.lock_turn_of_ne hk]

/-! ## Sealed keys -/

/-- Whether the lock that the table has for the key is poisoned, and no call is about to work with
it or to remove it. -/
structure SealedBy (r : LockRace ι) (k : IssueKey) (n : Nat) : Prop where
  entry : r.table.get? k = some n
  poisoned : (r.locks n).poisoned = true
  free : ∀ i, r.stage i ≠ .inside n ∧ r.stage i ≠ .done n

omit [DecidableEq ι] in
theorem SealedBy.alloc (h : r.SealedBy k n) (hn : n < r.made) (hk : k' ≠ k) :
    (r.alloc k').SealedBy k n where
  entry := by
    rw [get?_alloc, if_neg hk]
    exact h.entry
  poisoned := by
    rw [locks_alloc, if_neg (Nat.ne_of_lt hn)]
    exact h.poisoned
  free := h.free

omit [DecidableEq ι] in
theorem SealedBy.prune (h : r.SealedBy k n) (hk : k' ≠ k) : (r.prune k').SealedBy k n := by
  unfold LockRace.prune
  split
  · split_ifs
    · refine ⟨?_, h.poisoned, h.free⟩
      change (r.table.erase k').get? k = some n
      rw [KeyMap.get?_erase, if_neg hk]
      exact h.entry
    · exact h
  · exact h

theorem SealedBy.put (h : r.SealedBy k n) (hb : b ≠ .inside n ∧ b ≠ .done n)
    (hl : m = n → l.poisoned = true) : (r.put i b m l).SealedBy k n where
  entry := h.entry
  poisoned := by
    rw [locks_put]
    split_ifs with hm
    · exact hl hm.symm
    · exact h.poisoned
  free j := by
    rw [stage_put]
    split_ifs
    · exact hb
    · exact h.free j

theorem SealedBy.fetch (h : r.SealedBy k n) (hr : r.Sound key) (k' : IssueKey) (i : ι) :
    (r.fetch k' i).SealedBy k n := by
  have hlt := hr.made k n h.entry
  unfold LockRace.fetch KeyMap.contains
  rcases hn : r.table.get? k' with _ | m
  · have hk : k' ≠ k := by
      rintro rfl
      cases hn.symm.trans h.entry
    refine (h.alloc hlt hk).put ⟨nofun, nofun⟩ ?_
    intro hm
    exact absurd hm (Nat.ne_of_gt hlt)
  · refine h.put ⟨nofun, nofun⟩ ?_
    rintro rfl
    exact h.poisoned

theorem SealedBy.turn (h : r.SealedBy k n) (hr : r.Sound key) (ht : r.Turn key i breaks r') :
    r'.SealedBy k n := by
  have hinside {m : Nat} (hi : r.stage i = .inside m) : m ≠ n := fun hm => (h.free i).1 (hm ▸ hi)
  have hdone {m : Nat} (hi : r.stage i = .done m) : m ≠ n := fun hm => (h.free i).2 (hm ▸ hi)
  cases ht with
  | fetch => exact h.fetch hr (key i) i
  | wait | rest => exact h
  | refuse _ _ hpoisoned => exact h.put ⟨nofun, nofun⟩ fun _ => hpoisoned
  | @enter m _ _ hopen =>
    have hmn : m ≠ n := by
      rintro rfl
      exact absurd (hopen.symm.trans h.poisoned) nofun
    refine h.put ⟨fun hm => ?_, nofun⟩ fun hm => absurd hm hmn
    exact hmn (LockStage.inside.inj hm)
  | abandon hi => exact h.put ⟨nofun, nofun⟩ fun hm => absurd hm (hinside hi)
  | release hi =>
    refine h.put ⟨nofun, fun hm => ?_⟩ fun hm => absurd hm (hinside hi)
    exact hinside hi (LockStage.done.inj hm)
  | finish hi =>
    have hk : key i ≠ k := by
      rintro rfl
      have hm := hr.live i _ (congrArg LockStage.handle? hi)
      exact hdone hi (Option.some.inj (hm.symm.trans h.entry))
    refine SealedBy.prune ?_ hk
    exact h.put ⟨nofun, nofun⟩ fun hm => absurd hm (hdone hi)

/-- A section that breaks off seals its key, unless another call is done with its own. -/
theorem sealedBy_of_break (hr : r.Sound key) (hi : r.stage i = .inside n)
    (hdone : ∀ j, r.stage j ≠ .done n) : (r.endSection i n true).SealedBy (key i) n where
  entry := hr.live i n (congrArg LockStage.handle? hi)
  poisoned := by
    change ((r.put i (.broken n) n _).locks n).poisoned = true
    rw [locks_put, if_pos rfl]
  free j := by
    change (r.put i (.broken n) n _).stage j ≠ _ ∧ (r.put i (.broken n) n _).stage j ≠ _
    rw [stage_put]
    split_ifs with hj
    · exact ⟨nofun, nofun⟩
    · exact ⟨fun hjn => hj (hr.alone j i n hjn hi), hdone j⟩

/-! ## Steps of the others -/

omit [DecidableEq ι] in
theorem stage_prune (r : LockRace ι) (k : IssueKey) : (r.prune k).stage = r.stage := by
  unfold prune
  split
  · split_ifs <;> rfl
  · rfl

theorem stage_put_of_ne (h : j ≠ i) : (r.put i b n l).stage j = r.stage j := by
  rw [stage_put, if_neg h]

theorem stage_put_self : (r.put i b n l).stage i = b := by
  rw [stage_put, if_pos rfl]

/-- A step of one call leaves the others where they are. -/
theorem Turn.stage_of_ne (ht : r.Turn key i breaks r') (h : j ≠ i) : r'.stage j = r.stage j := by
  cases ht with
  | fetch =>
    refine (stage_put_of_ne h).trans ?_
    split_ifs <;> rfl
  | wait | rest => rfl
  | refuse | enter | abandon | release => exact stage_put_of_ne h
  | finish =>
    refine (congrFun (stage_prune _ _) j).trans ?_
    exact stage_put_of_ne h

/-- A call that breaks off does so in its section. -/
theorem Turn.broken (ht : r.Turn key i breaks r') (hj : r'.stage j = .broken n)
    (hgoing : r.stage j ≠ .broken n) :
    i = j ∧ r.stage j = .inside n ∧ breaks = true ∧ r' = r.endSection i n true := by
  by_cases h : j = i
  case neg => exact absurd ((ht.stage_of_ne h).symm.trans hj) hgoing
  subst h
  cases ht with
  | fetch => cases stage_put_self.symm.trans hj
  | wait | rest => exact absurd hj hgoing
  | refuse | enter | release => cases stage_put_self.symm.trans hj
  | abandon hi hbreaks =>
    cases stage_put_self.symm.trans hj
    exact ⟨rfl, hi, hbreaks, rfl⟩
  | finish =>
    rw [LockRace.finish, stage_prune] at hj
    cases stage_put_self.symm.trans hj

/-! ## Runs -/

/-- Whether every call that broke off left its key sealed. -/
def Shut (key : ι → IssueKey) (r : LockRace ι) : Prop :=
  ∀ i n, r.stage i = .broken n → r.SealedBy (key i) n

/-- Whether no other call is done with its section of a key when the call breaks off. -/
def QuietAt (r : LockRace ι) (i : ι) (breaks : Bool) : Prop :=
  ∀ n, r.stage i = .inside n → breaks = true → ∀ j, r.stage j ≠ .done n

/-- Whether no call breaks off while another one is done with its section of the key. -/
def Quiet (key : ι → IssueKey) : LockRace ι → List (ι × Bool) → Prop
  | _, [] => True
  | r, turn :: turns => r.QuietAt turn.1 turn.2 ∧ Quiet key (r.step key turn) turns

theorem Sound.run (h : r.Sound key) (turns : List (ι × Bool)) : (r.run key turns).Sound key := by
  induction turns generalizing r with
  | nil => exact h
  | cons turn turns ih => exact ih (h.turn (turn_step ..))

theorem InUse.run (h : r.InUse) (hr : r.Sound key) (turns : List (ι × Bool)) :
    (r.run key turns).InUse := by
  induction turns generalizing r with
  | nil => exact h
  | cons turn turns ih => exact ih (h.turn hr (turn_step ..)) (hr.turn (turn_step ..))

theorem SealedBy.run (h : r.SealedBy k n) (hr : r.Sound key) (turns : List (ι × Bool)) :
    (r.run key turns).SealedBy k n := by
  induction turns generalizing r with
  | nil => exact h
  | cons turn turns ih => exact ih (h.turn hr (turn_step ..)) (hr.turn (turn_step ..))

theorem Shut.turn (h : r.Shut key) (hr : r.Sound key) (ht : r.Turn key i breaks r')
    (hquiet : r.QuietAt i breaks) : r'.Shut key := by
  intro j n hj
  by_cases hgoing : r.stage j = .broken n
  · exact (h j n hgoing).turn hr ht
  · obtain ⟨rfl, hi, hbreaks, rfl⟩ := ht.broken hj hgoing
    exact sealedBy_of_break hr hi (hquiet n hi hbreaks)

theorem Shut.run {turns : List (ι × Bool)} (h : r.Shut key) (hr : r.Sound key)
    (hquiet : r.Quiet key turns) : (r.run key turns).Shut key := by
  induction turns generalizing r with
  | nil => exact h
  | cons turn turns ih =>
    exact ih (h.turn hr (turn_step ..) hquiet.1) (hr.turn (turn_step ..)) hquiet.2

omit [DecidableEq ι] in
theorem InUse.start : ({} : LockRace ι).InUse := nofun

omit [DecidableEq ι] in
theorem Shut.start : ({} : LockRace ι).Shut key := nofun

/-- Two calls on one key are never in their sections at once. -/
theorem serial (turns : List (ι × Bool)) (hkey : key i = key j)
    (hi : (run key {} turns).stage i = .inside n) (hj : (run key {} turns).stage j = .inside m) :
    i = j :=
  (Sound.start.run turns).eq_of_inside hkey hi hj

/-- No lock is left when every call has returned, whatever the order of their steps. -/
theorem tracked_eq_zero (turns : List (ι × Bool))
    (hover : ∀ i, ((run key {} turns).stage i).handle? = none)
    (hbroken : ∀ i n, (run key {} turns).stage i ≠ .broken n) :
    (run key {} turns).view.tracked = 0 := by
  have hr : (run key {} turns).Sound key := Sound.start.run turns
  have huse : (run key {} turns).InUse := InUse.start.run Sound.start turns
  have hempty : (run key {} turns).table = ∅ := by
    refine KeyMap.ext_get? fun k => Option.not_isSome_iff_eq_none.1 fun hk => ?_
    obtain ⟨n, -, i, -, hi | hi⟩ := (contains_table_iff hr huse).1 hk
    · cases (hover i).symm.trans hi
    · exact hbroken i n hi
  unfold view
  rw [hempty]
  rfl

/-- The table has an entry for a key as long as a call on it is under way, and for good once a call
on it broke off. -/
theorem contains_run_iff {turns : List (ι × Bool)} (hquiet : Quiet key {} turns) :
    (run key {} turns).table.contains k = true ↔ ∃ i, key i = k ∧
      (((run key {} turns).stage i).handle? ≠ none ∨
        ∃ n, (run key {} turns).stage i = .broken n) := by
  have hr : (run key {} turns).Sound key := Sound.start.run turns
  have huse : (run key {} turns).InUse := InUse.start.run Sound.start turns
  rw [contains_table_iff hr huse]
  constructor
  · rintro ⟨n, -, i, hk, hi | hi⟩
    · exact ⟨i, hk, .inl (by rw [hi]; nofun)⟩
    · exact ⟨i, hk, .inr ⟨n, hi⟩⟩
  · rintro ⟨i, rfl, hi | ⟨n, hi⟩⟩
    · obtain ⟨n, hn⟩ := Option.ne_none_iff_exists'.1 hi
      exact ⟨n, hr.live i n hn, i, rfl, .inl hn⟩
    · exact ⟨n, (Shut.start.run Sound.start hquiet i n hi).entry, i, rfl, .inr hi⟩

/-- Once a call broke off, no call on its key enters its section again. -/
theorem refused_ever_after {turns : List (ι × Bool)} (hquiet : Quiet key {} turns)
    (hi : (run key {} turns).stage i = .broken n) (hkey : key j = key i) (m : Nat)
    (later : List (ι × Bool)) : (run key {} (turns ++ later)).stage j ≠ .inside m := by
  have hr : (run key {} turns).Sound key := Sound.start.run turns
  have hrun : run key {} (turns ++ later) = run key (run key {} turns) later :=
    List.foldl_append ..
  have hsealed := (Shut.start.run Sound.start hquiet i n hi).run hr later
  rw [hrun]
  intro hj
  have hm := (hr.run later).live j m (congrArg LockStage.handle? hj)
  rw [hkey, hsealed.entry] at hm
  exact (hsealed.free j).1 (Option.some.inj hm ▸ hj)

/-- The last call that finishes removes the lock, poisoned or not. -/
theorem get?_step_eq_none (hr : r.Sound key) (hi : r.stage i = .done n)
    (hlast : (r.locks n).handles = 1) (breaks : Bool) :
    (r.step key (i, breaks)).table.get? (key i) = none := by
  have hn : (r.put i .returned n { r.locks n with handles := (r.locks n).handles - 1 }).table.get?
      (key i) = some n := hr.live i n (congrArg LockStage.handle? hi)
  unfold step
  dsimp only
  rw [hi]
  dsimp only
  unfold finish prune
  rw [hn]
  simp only [put, Function.update_self, hlast, if_true]
  rw [KeyMap.get?_erase, if_pos rfl]

/-- A call that was done with its section when another one broke off makes way for a third one. -/
theorem exists_overtaking {i j l : ι} (hij : i ≠ j) (hil : i ≠ l) (hjl : j ≠ l)
    (hj : key j = key i) (hl : key l = key i) :
    ∃ turns, (run key {} turns).stage j = .broken 0 ∧ (run key {} turns).stage l = .inside 1 := by
  -- The call `i` finishes only when `j` broke off, and takes the lock of `j` with it.
  refine ⟨[(i, false), (i, false), (i, false), (j, false), (j, false), (j, true), (i, false),
    (l, false), (l, false)], ?_⟩
  simp [run, step, fetch, take, endSection, finish, prune, put, alloc, KeyMap.contains,
    KeyMap.get?_erase, hij, hjl, hij.symm, hil.symm, hjl.symm, hj, hl]

end LockRace

end Triage
