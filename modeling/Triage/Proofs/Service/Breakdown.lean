import Triage.Proofs.Service.Ledger
import Triage.Proofs.Service.LockUse
import Triage.Proofs.Service.Recovery

/-!
# Calls that break off

Any calls of the service take turns on one world; each step may fail, and may break its call off.
The locks that a call holds as it breaks off become poisoned, and no others do.  From then on the
documents of those keys cannot be repaired; those of all other keys can.
-/

namespace Triage

namespace World

variable {w : World} {f : Option Failure} {c : Call}

/-- A step that calls no collaborator cannot be disturbed. -/
theorem respond_inside (w : World) (f : Option Failure) (hc : c.isOutside = false) :
    w.respond f c = (some (w.perform c).1, (w.perform c).2) := by
  rcases f with _ | f
  · cases c <;> rfl
  · cases c <;> cases f <;> first | rfl | cases hc

theorem locks_respond (w : World) (f : Option Failure) (hc : c.isOutside = true) :
    (w.respond f c).2.locks = w.locks := by
  rcases w.respond_snd f c with hw | hw <;> rw [hw]
  cases c with
  | store | index | catalog => rfl
  | permits | freshKey | enter | leave | record => cases hc

theorem isPoisoned_abandon (w : World) (held : List IssueKey) (key : IssueKey) :
    (w.abandon held).locks.isPoisoned key = true ↔ w.locks.isPoisoned key = true ∨ key ∈ held := by
  unfold abandon
  generalize w.locks = t
  induction held generalizing t with
  | nil => simp
  | cons k held ih =>
    rw [List.foldl_cons, ih, LockTable.isPoisoned_abandon, or_assoc, List.mem_cons]

theorem isHeld_abandon (w : World) (held : List IssueKey) (key : IssueKey) :
    (w.abandon held).locks.isHeld key = true ↔ w.locks.isHeld key = true ∧ key ∉ held := by
  unfold abandon
  generalize w.locks = t
  induction held generalizing t with
  | nil => simp
  | cons k held ih =>
    rw [List.foldl_cons, ih, LockTable.isHeld_abandon, and_assoc, List.mem_cons, not_or]

/-- Whether the store is in memory. -/
def InMemory (w : World) : Prop := ∃ m, w.store = .memory m

theorem InMemory.perform (h : w.InMemory) (c : Call) : (w.perform c).2.InMemory := by
  obtain ⟨m, hm⟩ := h
  cases c with
  | store c => exact ⟨(m.perform w.clock c).2, by simp only [World.perform, hm]; rfl⟩
  | index | catalog | permits | freshKey | enter | leave | record => exact ⟨m, hm⟩

theorem InMemory.respond (h : w.InMemory) (f : Option Failure) (c : Call) :
    (w.respond f c).2.InMemory := by
  rcases w.respond_snd f c with hw | hw <;> rw [hw]
  · exact h
  · exact h.perform c

end World

namespace Service

open World

/-- Calls under way that may break off, and the keys whose locks were held when one did. -/
structure Shift (ι : Type) where
  world : World
  calls : ι → Activity Unit
  wrecked : List IssueKey := []

/-- What happens next: a call takes its next step, disturbed or not, a batch is put straight into
the store, or others change gate, catalog and clock. -/
inductive ShiftTurn (ι : Type)
  | step (i : ι) (f : Option Failure)
  | ingest (issues : List Issue)
  | others (gate : Gate) (catalog : Catalog) (clock : Timestamp)

namespace Shift

variable {ι : Type}

/-- The calls before their first steps. -/
def start (limits : ServiceLimits) (w : World) (calls : ι → AnyCall) : Shift ι :=
  { world := w, calls := fun i => { script := (calls i).script limits } }

/-- Whether all calls have returned or broken off. -/
def Over (b : Shift ι) : Prop := ∀ i, (b.calls i).next? = none

/-! ## Locks -/

/-- Whether the locks that are held are those that the calls hold, each one call's, none of them
poisoned, and the poisoned ones are those that were held when a call broke off. -/
structure Secure (b : Shift ι) : Prop where
  spans : ∀ i, (b.calls i).script.Spans (b.calls i).held []
  nodup : ∀ i, (b.calls i).held.Nodup
  apart : ∀ i j key, key ∈ (b.calls i).held → key ∈ (b.calls j).held → i = j
  isHeld_iff : ∀ key, b.world.locks.isHeld key = true ↔ ∃ i, key ∈ (b.calls i).held
  sound : ∀ key, b.world.locks.isHeld key = true → b.world.locks.isPoisoned key = false
  wrecked : ∀ key, b.world.locks.isPoisoned key = true ↔ key ∈ b.wrecked

namespace Secure

variable {b : Shift ι} {i : ι} {a : Activity Unit} {w : World}

theorem start (hfree : ∀ key, w.locks.isHeld key = false)
    (hsound : ∀ key, w.locks.isPoisoned key = false) (limits : ServiceLimits)
    (calls : ι → AnyCall) : (Shift.start limits w calls).Secure where
  spans := fun i => (calls i).restores_script limits []
  nodup := fun _ => List.nodup_nil
  apart := nofun
  isHeld_iff := fun key => by simp [Shift.start, hfree]
  sound := fun key _ => hsound key
  wrecked := fun key => by simp [Shift.start, hsound]

theorem isHeld_apart_iff (h : b.Secure) (i : ι) (key : IssueKey) :
    (b.world.locks.isHeld key = true ∧ key ∉ (b.calls i).held) ↔
      ∃ j, j ≠ i ∧ key ∈ (b.calls j).held := by
  rw [h.isHeld_iff]
  constructor
  · rintro ⟨⟨j, hj⟩, hi⟩
    exact ⟨j, fun hij => hi (hij ▸ hj), hj⟩
  · rintro ⟨j, hji, hj⟩
    exact ⟨⟨j, hj⟩, fun hi => hji (h.apart j i key hj hi)⟩

/-- One call goes on with other locks: those it held before or that were free. -/
theorem update (h : b.Secure) {b' : Shift ι} (hcall : b'.calls i = a)
    (hcalls : ∀ j, j ≠ i → b'.calls j = b.calls j) (hspans : a.script.Spans a.held [])
    (hnodup : a.held.Nodup)
    (hnew : ∀ key ∈ a.held, key ∈ (b.calls i).held ∨ b.world.locks.isHeld key = false)
    (hheld : ∀ key, b'.world.locks.isHeld key = true ↔
      key ∈ a.held ∨ b.world.locks.isHeld key = true ∧ key ∉ (b.calls i).held)
    (hsound : ∀ key, b'.world.locks.isHeld key = true → b'.world.locks.isPoisoned key = false)
    (hwrecked : ∀ key, b'.world.locks.isPoisoned key = true ↔ key ∈ b'.wrecked) : b'.Secure := by
  have hapart {j : ι} {key : IssueKey} (hj : j ≠ i) (hkey : key ∈ (b.calls j).held) :
      key ∉ a.held := by
    intro hin
    rcases hnew key hin with hi | hfree
    · exact hj (h.apart j i key hkey hi)
    · exact absurd (hfree.symm.trans ((h.isHeld_iff key).2 ⟨j, hkey⟩)) nofun
  refine ⟨fun j => ?_, fun j => ?_, fun j k key hj hk => ?_, fun key => ?_, hsound, hwrecked⟩
  · by_cases hj : j = i
    · rwa [hj, hcall]
    · rw [hcalls j hj]
      exact h.spans j
  · by_cases hj : j = i
    · rwa [hj, hcall]
    · rw [hcalls j hj]
      exact h.nodup j
  · by_cases hji : j = i <;> by_cases hki : k = i
    · exact hji.trans hki.symm
    · rw [hji, hcall] at hj
      rw [hcalls k hki] at hk
      exact absurd hj (hapart hki hk)
    · rw [hki, hcall] at hk
      rw [hcalls j hji] at hj
      exact absurd hk (hapart hji hj)
    · rw [hcalls j hji] at hj
      rw [hcalls k hki] at hk
      exact h.apart j k key hj hk
  · rw [hheld, h.isHeld_apart_iff]
    constructor
    · rintro (hin | ⟨j, hji, hj⟩)
      · exact ⟨i, hcall.symm ▸ hin⟩
      · exact ⟨j, (hcalls j hji).symm ▸ hj⟩
    · rintro ⟨j, hj⟩
      by_cases hji : j = i
      · rw [hji, hcall] at hj
        exact .inl hj
      · rw [hcalls j hji] at hj
        exact .inr ⟨j, hji, hj⟩

/-- Once all calls are over, no lock is held. -/
theorem isHeld_of_over (h : b.Secure) (hover : b.Over) (key : IssueKey) :
    b.world.locks.isHeld key = false := by
  rw [Bool.eq_false_iff, ne_eq, h.isHeld_iff]
  rintro ⟨i, hi⟩
  have hspans := h.spans i
  cases hs : (b.calls i).script with
  | ask c next => exact absurd (hover i) (by simp [Activity.next?, hs])
  | done r =>
    rw [hs] at hspans
    rw [show (b.calls i).held = [] from hspans] at hi
    cases hi

end Secure

/-! ## Turns -/

variable [DecidableEq ι]

/-- The shift after a turn; a call that has to wait for a lock, or is over, stays as it is. -/
def turn (b : Shift ι) : ShiftTurn ι → Shift ι
  | .step i f =>
    if (b.calls i).isWaiting b.world then b
    else match (b.calls i).step b.world f with
      | (.inl a, w) => { b with world := w, calls := Function.update b.calls i a }
      | (.inr (.returned _), _) => b
      | (.inr .panicked, w) =>
        ⟨w, Function.update b.calls i ⟨.done (), []⟩, (b.calls i).held ++ b.wrecked⟩
  | .ingest issues => { b with world := (b.world.perform (.store (.insert issues))).2 }
  | .others gate catalog clock => { b with world := { b.world with gate, catalog, clock } }

/-- The shift after the turns. -/
def run (b : Shift ι) (ts : List (ShiftTurn ι)) : Shift ι := ts.foldl turn b

variable {b : Shift ι}

/-- What becomes of a call's turn: nothing, if it waits or is over; a step; or it breaks off. -/
theorem turn_step (b : Shift ι) (i : ι) (f : Option Failure) : b.turn (.step i f) = b ∨
    ∃ c next, (b.calls i).script = .ask c next ∧ (b.calls i).isWaiting b.world = false ∧
      ((∃ r, (b.world.respond f c).1 = some r ∧ b.turn (.step i f) =
          { b with
            world := (b.world.respond f c).2
            calls := Function.update b.calls i
              ⟨next r, Activity.heldAfter (b.calls i).held c r⟩ }) ∨
        (b.world.respond f c).1 = none ∧
          b.turn (.step i f) = ⟨(b.world.respond f c).2.abandon (b.calls i).held,
            Function.update b.calls i ⟨.done (), []⟩, (b.calls i).held ++ b.wrecked⟩) := by
  simp only [turn, Activity.step]
  split_ifs with hwait
  · exact .inl rfl
  cases hs : (b.calls i).script with
  | done r => exact .inl rfl
  | ask c next =>
    refine .inr ⟨c, next, rfl, Bool.eq_false_iff.2 hwait, ?_⟩
    dsimp only
    rcases b.world.respond f c with ⟨_ | r, w⟩
    · exact .inr ⟨rfl, rfl⟩
    · exact .inl ⟨r, rfl, rfl⟩

/-- What every step keeps, breaking off as well, a turn of a call keeps. -/
theorem world_step {P : World → Prop} (hstep : ∀ w f c, P w → P (w.respond f c).2)
    (habandon : ∀ w held, P w → P (w.abandon held)) (h : P b.world) (i : ι) (f : Option Failure) :
    P (b.turn (.step i f)).world := by
  rcases b.turn_step i f with heq | ⟨c, next, -, -, ⟨r, -, heq⟩ | ⟨-, heq⟩⟩ <;> rw [heq]
  · exact h
  · exact hstep b.world f c h
  · exact habandon _ _ (hstep b.world f c h)

theorem reachable_turn (h : b.world.Reachable) (t : ShiftTurn ι) : (b.turn t).world.Reachable := by
  cases t with
  | step i f =>
    exact world_step (fun w f c h => h.respond f c) (fun w held h => h.abandon held) h i f
  | ingest issues => exact h.respond none (.store (.insert issues))
  | others gate catalog clock => exact h.turn rfl

theorem inMemory_turn (h : b.world.InMemory) (t : ShiftTurn ι) : (b.turn t).world.InMemory := by
  cases t with
  | step i f => exact world_step (fun w f c h => h.respond f c) (fun w held h => h) h i f
  | ingest issues => exact h.perform (.store (.insert issues))
  | others gate catalog clock => exact h

namespace Secure

variable {i : ι} {w : World}

/-- A step that neither takes nor drops a lock. -/
theorem stay (h : b.Secure) {next : Script Unit} (hspans : next.Spans (b.calls i).held [])
    (hheld : ∀ key, w.locks.isHeld key = b.world.locks.isHeld key)
    (hpoisoned : ∀ key, w.locks.isPoisoned key = b.world.locks.isPoisoned key) :
    Secure ⟨w, Function.update b.calls i ⟨next, (b.calls i).held⟩, b.wrecked⟩ := by
  refine h.update (Function.update_self ..) (fun _ hj => Function.update_of_ne hj ..) hspans
    (h.nodup i) (fun _ => .inl) (fun key => ?_) (fun key hk => ?_) fun key => by
      rw [hpoisoned, h.wrecked]
  · have hin : key ∈ (b.calls i).held → b.world.locks.isHeld key = true :=
      fun hin => (h.isHeld_iff key).2 ⟨i, hin⟩
    rw [hheld]
    tauto
  · rw [hpoisoned]
    exact h.sound key (hheld key ▸ hk)

/-- A step that takes a free lock. -/
theorem enter (h : b.Secure) {next : Script Unit} {key : IssueKey}
    (hspans : next.Spans (key :: (b.calls i).held) [])
    (hfree : b.world.locks.isHeld key = false) (hopen : b.world.locks.isPoisoned key = false) :
    Secure ⟨{ b.world with locks := (b.world.locks.enter key).2 },
      Function.update b.calls i ⟨next, key :: (b.calls i).held⟩, b.wrecked⟩ := by
  have hfresh : key ∉ (b.calls i).held := fun hin =>
    absurd (hfree.symm.trans ((h.isHeld_iff key).2 ⟨i, hin⟩)) nofun
  refine h.update (Function.update_self ..) (fun _ hj => Function.update_of_ne hj ..) hspans
    (List.nodup_cons.2 ⟨hfresh, h.nodup i⟩) (fun key' hin => ?_) (fun key' => ?_)
    (fun key' hk => ?_) fun key' => ?_
  · rcases List.mem_cons.1 hin with rfl | hin
    · exact .inr hfree
    · exact .inl hin
  · have hin : key' ∈ (b.calls i).held → b.world.locks.isHeld key' = true :=
      fun hin => (h.isHeld_iff key').2 ⟨i, hin⟩
    by_cases hk : key = key'
    · subst hk
      simp [LockTable.isHeld_enter_self hopen]
    · simp only [LockTable.isHeld_enter_of_ne hk, List.mem_cons, Ne.symm hk, false_or]
      tauto
  · rw [LockTable.isPoisoned_enter]
    by_cases hkey : key = key'
    · exact hkey ▸ hopen
    · rw [LockTable.isHeld_enter_of_ne hkey] at hk
      exact h.sound key' hk
  · rw [LockTable.isPoisoned_enter, h.wrecked]

/-- A step that drops a lock that its call holds. -/
theorem leave (h : b.Secure) {next : Script Unit} {key : IssueKey}
    (hkey : key ∈ (b.calls i).held) (hspans : next.Spans ((b.calls i).held.erase key) []) :
    Secure ⟨{ b.world with locks := b.world.locks.leave key },
      Function.update b.calls i ⟨next, (b.calls i).held.erase key⟩, b.wrecked⟩ := by
  have hopen : b.world.locks.isPoisoned key = false := h.sound key ((h.isHeld_iff key).2 ⟨i, hkey⟩)
  refine h.update (Function.update_self ..) (fun _ hj => Function.update_of_ne hj ..) hspans
    ((h.nodup i).erase key) (fun key' hin => .inl (List.mem_of_mem_erase hin)) (fun key' => ?_)
    (fun key' hk => ?_) fun key' => ?_
  · have hin : key' ∈ (b.calls i).held → b.world.locks.isHeld key' = true :=
      fun hin => (h.isHeld_iff key').2 ⟨i, hin⟩
    rw [(h.nodup i).mem_erase_iff]
    by_cases hk : key = key'
    · subst hk
      simp [LockTable.isHeld_leave_self, hkey]
    · simp only [LockTable.isHeld_leave_of_ne hk, ne_eq, Ne.symm hk, not_false_eq_true, true_and]
      tauto
  · rw [LockTable.isPoisoned_leave hopen]
    by_cases hk' : key = key'
    · exact hk' ▸ hopen
    · rw [LockTable.isHeld_leave_of_ne hk'] at hk
      exact h.sound key' hk
  · rw [LockTable.isPoisoned_leave hopen, h.wrecked]

/-- A call breaks off. -/
theorem abandon (h : b.Secure) (hlocks : w.locks = b.world.locks) :
    Secure ⟨w.abandon (b.calls i).held, Function.update b.calls i ⟨.done (), []⟩,
      (b.calls i).held ++ b.wrecked⟩ := by
  refine h.update (Function.update_self ..) (fun _ hj => Function.update_of_ne hj ..) rfl
    List.nodup_nil nofun (fun key => ?_) (fun key hk => ?_) fun key => ?_
  · rw [isHeld_abandon, hlocks]
    simp
  · rw [isHeld_abandon, hlocks] at hk
    have hsound := h.sound key hk.1
    rw [Bool.eq_false_iff, ne_eq, isPoisoned_abandon, hlocks]
    rintro (hp | hin)
    · exact absurd (hsound.symm.trans hp) nofun
    · exact hk.2 hin
  · rw [isPoisoned_abandon, hlocks, List.mem_append, h.wrecked, or_comm]

theorem step (h : b.Secure) (i : ι) (f : Option Failure) : (b.turn (.step i f)).Secure := by
  rcases b.turn_step i f with heq | ⟨c, next, hs, hwait, hstep⟩
  · rwa [heq]
  have hspans := h.spans i
  rw [hs] at hspans
  cases hc : c.isOutside with
  | true =>
    have hlocks := b.world.locks_respond f hc
    rcases hstep with ⟨r, -, heq⟩ | ⟨-, heq⟩ <;> rw [heq]
    · have hheld : Activity.heldAfter (b.calls i).held c r = (b.calls i).held := by
        cases c <;> first | rfl | cases hc
      have hnext := hspans.2 r
      rw [hheld] at hnext ⊢
      exact h.stay hnext (fun key => by rw [hlocks]) fun key => by rw [hlocks]
    · exact h.abandon hlocks
  | false =>
    rw [b.world.respond_inside f hc] at hstep
    obtain ⟨r, hr, heq⟩ := hstep.resolve_right fun hbroken => nomatch hbroken.1
    obtain rfl := Option.some.inj hr
    rw [heq]
    cases c with
    | store | index | catalog => cases hc
    | permits p op project => exact h.stay (hspans.2 _) (fun _ => rfl) fun _ => rfl
    | freshKey => exact h.stay (hspans.2 _) (fun _ => rfl) fun _ => rfl
    | record e => exact h.stay (hspans.2 _) (fun _ => rfl) fun _ => rfl
    | leave key => exact h.leave (hspans.1 key rfl) (hspans.2 ())
    | enter key =>
      have hfree : b.world.locks.isHeld key = false := by
        simpa [Activity.isWaiting, Activity.next?, hs] using hwait
      have hentered : (b.world.perform (.enter key)).1 = !b.world.locks.isPoisoned key :=
        LockTable.enter_fst _ _
      simp only [hentered]
      cases hp : b.world.locks.isPoisoned key with
      | true =>
        exact h.stay (hspans.2 false) (LockTable.isHeld_enter_of_isPoisoned hp)
          (LockTable.isPoisoned_enter _ _)
      | false => exact h.enter (hspans.2 true) hfree hp

theorem turn (h : b.Secure) (t : ShiftTurn ι) : (b.turn t).Secure := by
  cases t with
  | step i f => exact h.step i f
  | ingest issues => exact ⟨h.spans, h.nodup, h.apart, h.isHeld_iff, h.sound, h.wrecked⟩
  | others gate catalog clock => exact ⟨h.spans, h.nodup, h.apart, h.isHeld_iff, h.sound, h.wrecked⟩

end Secure

theorem run_keeps {P : Shift ι → Prop} (hturn : ∀ b t, P b → P (b.turn t)) (h : P b)
    (ts : List (ShiftTurn ι)) : P (b.run ts) := by
  induction ts generalizing b with
  | nil => exact h
  | cons t ts ih => exact ih (hturn b t h)

end Shift

/-! ## Repair -/

/-- After any run in memory whose calls are over, whatever failed and broke off, no lock is held and
those that were held when a call broke off are poisoned.  With every call answered again, the
document of a stored issue becomes that of its row unless the lock of its key is poisoned, in which
case the reindexing is refused; and a rebuilding ends as the poisoned locks have it. -/
theorem unpoisoned_repairable (limits : ServiceLimits) {ι : Type} [DecidableEq ι] {w : World}
    (hw : Start w) (hmemory : w.InMemory) (hfree : ∀ key, w.locks.isHeld key = false)
    (calls : ι → AnyCall) (ts : List (ShiftTurn ι)) {b : Shift ι}
    (hb : (Shift.start limits w calls).run ts = b) (hover : b.Over) :
    (∀ key, b.world.locks.isHeld key = false) ∧
      (∀ key, b.world.locks.isPoisoned key = true ↔ key ∈ b.wrecked) ∧
      (∀ key, b.world.store.HasRow key → key ∉ b.wrecked → ∃ row w',
        b.world.read (.selectByKey key) = .ok (some row) ∧
        (reindex key).run b.world [] = (.returned (.ok row.doc), w') ∧
        w'.store = b.world.store ∧ w'.index.get? key = some row.doc ∧
        ∀ key' ≠ key, w'.index.get? key' = b.world.index.get? key') ∧
      (∀ key ∈ b.wrecked, ∃ w', (reindex key).run b.world [] =
          (.returned (.error .lockPoisoned), w') ∧
        ∀ key', w'.index.get? key' = b.world.index.get? key') ∧
      ∃ r w', indexAll.run b.world [] = (.returned r, w') ∧ Rebuilds b.world r w' := by
  have hsecure : b.Secure := hb ▸ Shift.run_keeps (fun _ t h => h.turn t)
    (.start hfree hw.unpoisoned limits calls) ts
  obtain ⟨m, hm⟩ : b.world.InMemory :=
    hb ▸ Shift.run_keeps (P := fun b => b.world.InMemory) (fun _ t h => Shift.inMemory_turn h t)
      hmemory ts
  have hreachable : b.world.Reachable :=
    hb ▸ Shift.run_keeps (P := fun b => b.world.Reachable) (fun _ t h => Shift.reachable_turn h t)
      (.start hw.rows) ts
  have hreadable := readable_memory hm hreachable.keyed
  have hrows : b.world.read .selectAll = .ok m.issues.values := by
    rw [World.read, hm]
    rfl
  refine ⟨hsecure.isHeld_of_over hover, hsecure.wrecked, fun key hrow hkey => ?_,
    fun key hkey => ?_, indexAll_rebuilds hreadable hrows⟩
  · obtain ⟨d, hd⟩ := Option.isSome_iff_exists.1 ((hreadable.isSome_rowDoc? key).2 hrow)
    obtain ⟨row?, hread⟩ := hreadable.reads key
    obtain ⟨row, rfl, -⟩ := Option.map_eq_some_iff.1 ((rowDoc?_of_read hread).symm.trans hd)
    have hopen : b.world.locks.isPoisoned key = false := by
      rw [Bool.eq_false_iff, ne_eq, hsecure.wrecked]
      exact hkey
    obtain ⟨_, w', hrun, rfl, h⟩ :=
      (attains_reindex_undisturbed hreadable hread hopen).runFrom_nil []
    refine ⟨row, w', hread, hrun, h.store, ?_, fun key' hk => h.others key' (by simpa using hk)⟩
    rw [h.synced key List.mem_cons_self, rowDoc?_of_read hread]
    rfl
  · obtain ⟨_, w', hrun, rfl, h⟩ :=
      (attains_reindex_poisoned ((hsecure.wrecked key).2 hkey)).runFrom_nil []
    exact ⟨w', hrun, fun key' => h.others key' List.not_mem_nil⟩

/-- Two issues are put into the store, and the change of the second one breaks off as its document
is put. -/
def sampleBreakdown : List (ShiftTurn Unit) :=
  .ingest [sampleIssue "a", sampleIssue "b"] :: List.replicate 5 (.step () none) ++
    [.step () (some .panic)]

/-- The first of the two issues can be repaired. -/
theorem unpoisoned_repairable_sample : Start World.sample ∧ World.sample.InMemory ∧
    (∀ key, World.sample.locks.isHeld key = false) ∧ ∃ b : Shift Unit,
      (Shift.start {} World.sample fun _ => .writing (.issue (sampleChange ⟨"b"⟩))).run
        sampleBreakdown = b ∧ b.Over ∧ b.wrecked = [⟨"b"⟩] ∧
      ∃ (row : Issue) (w' : World),
        (reindex ⟨"a"⟩).run b.world [] = (.returned (.ok row.doc), w') := by
  have hstart : Start World.sample := ⟨World.not_hasRow_sample, fun _ => rfl, fun _ => rfl⟩
  have hmemory : World.sample.InMemory := ⟨_, rfl⟩
  refine ⟨hstart, hmemory, fun _ => rfl, _, rfl, fun _ => rfl, rfl, ?_⟩
  obtain ⟨-, -, hrepair, -⟩ := unpoisoned_repairable {} hstart hmemory (fun _ => rfl)
    (fun _ => .writing (.issue (sampleChange ⟨"b"⟩))) sampleBreakdown rfl fun _ => rfl
  obtain ⟨row, w', -, hrun, -⟩ := hrepair ⟨"a"⟩ (by decide) (by decide)
  exact ⟨row, w', hrun⟩

/-- The second one cannot: its row is changed and it has no document, and neither a rebuilding nor
its own reindexing gives it one. -/
theorem poisoned_unrepaired : ∃ b : Shift Unit,
    (Shift.start {} World.sample fun _ => .writing (.issue (sampleChange ⟨"b"⟩))).run
      sampleBreakdown = b ∧ b.Over ∧
    (b.world.read (.selectByKey ⟨"b"⟩)).map (·.map (·.severity)) = .ok (some .blocker) ∧
    (∃ w', indexAll.run b.world [] = (.returned (.error .lockPoisoned), w') ∧
      w'.index.get? ⟨"b"⟩ = none) ∧
    ∃ w', (reindex ⟨"b"⟩).run b.world [] = (.returned (.error .lockPoisoned), w') ∧
      w'.index.get? ⟨"b"⟩ = none :=
  ⟨_, rfl, fun _ => rfl, by decide, ⟨_, rfl, rfl⟩, _, rfl, rfl⟩

end Service

end Triage
