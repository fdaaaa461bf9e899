import Mathlib.Logic.Function.Basic
import Triage.Proofs.Service.Conduct

/-!
# Calls side by side

What each of several calls knows at its phase stays so while the others go on, for a row is only
changed under the lock of its key.  The one exception is a row that was just raised, which its call
knows without a lock.  A row that one of them stored is mirrored, or its document is still owed.
-/

namespace Triage

/-- The key of the row that the call would change. -/
def World.updates? (w : World) : Call → Option IssueKey
  | .store (.updateWithChange i user diffs) =>
    (w.store.perform w.clock (.updateWithChange i user diffs)).1.toOption.map (·.key)
  | _ => none

/-- The key of the document that the call puts. -/
def Call.puts? : Call → Option IssueKey
  | .index (.put d) => some d.key
  | _ => none

theorem Call.puts?_eq_some {c : Call} {key : IssueKey} (h : c.puts? = some key) :
    ∃ d, c = .index (.put d) ∧ d.key = key := by
  unfold Call.puts? at h
  split at h
  next d => exact ⟨d, rfl, Option.some.inj h⟩
  next => cases h

theorem World.updates?_eq_some {w : World} {c : Call} {key : IssueKey}
    (h : w.updates? c = some key) : ∃ i user diffs row,
      c = .store (.updateWithChange i user diffs) ∧
      (w.store.perform w.clock (.updateWithChange i user diffs)).1 = .ok row ∧ row.key = key := by
  unfold World.updates? at h
  split at h
  next i user diffs =>
    obtain ⟨row, hrow, rfl⟩ := Option.map_eq_some_iff.1 h
    exact ⟨i, user, diffs, row, rfl, toOption_eq_some.1 hrow, rfl⟩
  next => cases h

namespace Service

/-- Whether what a call knows at its phase is so. -/
structure Progress.Fits (w : World) (p : Progress) : Prop where
  held : ∀ key, p.phase.lock? = some key → w.locks.isHeld key = true
  shows : ∀ row, p.phase.row? = some row → w.store.Shows row
  missing : ∀ key, p.phase = .missing key → ¬w.store.HasRow key ∧ key ∈ p.listed

/-- What a step of a call may do: only the row that it changes is another one after it, only the
lock that it holds is set free, and what it stored or owes is mirrored or owed. -/
structure Moves (w w' : World) (c : Call) (p p' : Progress) : Prop where
  fits : p'.Fits w'
  keyed : w'.store.Keyed
  cell : ∀ key, w.store.HasRow key → w.updates? c ≠ some key →
    w'.store.cell? key = w.store.cell? key
  hasRow : ∀ key, w.store.HasRow key → w'.store.HasRow key
  raised : ∀ key, w'.store.HasRow key →
    w.store.HasRow key ∨ p.phase = .drawn key ∧ key ∈ p'.wrote
  isHeld : ∀ key, w.locks.isHeld key = true → p.phase.lock? ≠ some key →
    w'.locks.isHeld key = true
  lock : ∀ key, p'.phase.lock? = some key → p.phase.lock? = some key ∨ w.locks.isHeld key = false
  mirrors : ∀ key, w.Mirrors key → w'.Mirrors key ∨ p'.phase.owed? = some key
  owed : ∀ key, p.phase.owed? = some key → w'.Mirrors key ∨ p'.phase.owed? = some key
  wrote : ∀ key ∈ p'.wrote, key ∈ p.wrote ∨ p'.phase.owed? = some key
  wrote_subset : p.wrote ⊆ p'.wrote
  docs : ∀ key, w.index.get? key = none → w'.index.get? key = none ∨ w'.store.HasRow key
  listed : ∀ key ∈ p'.listed, key ∈ p.listed ∨ w.store.HasRow key ∨ w.index.get? key ≠ none
  keysDrawn : w.keysDrawn ≤ w'.keysDrawn
  drawn : ∀ key, p'.phase = .drawn key → p.phase = .drawn key ∨ key = World.nthKey w.keysDrawn

variable {ι : Type} {w₀ w w' : World} {g : ι → Progress} {c : Call} {p p' : Progress}

/-! ## The steps of one call -/

theorem Phase.lock?_paid (p : Phase) : p.paid.lock? = p.lock? := by
  cases p <;> rfl

theorem Phase.row?_of_paid {p : Phase} {row : Issue} (h : p.paid.row? = some row) :
    p.row? = some row := by
  cases p with
  | raised => cases h
  | knowing | idle | drawn | holding | missing => exact h

theorem Phase.owed?_eq {p : Phase} {row : Issue} {key : IssueKey} (hr : p.row? = some row)
    (hk : p.owed? = some key) : key = row.key := by
  rcases p with _ | _ | _ | _ | ⟨row', _ | _⟩ | _ <;> cases hr <;> cases hk <;> rfl

theorem Phase.owed?_of_settled {p : Phase} (h : p.Settled) : p.owed? = none := by
  rcases p with _ | _ | _ | _ | ⟨row, _ | _⟩ | _ <;> first | rfl | exact h.elim

theorem fits_of_none (hl : p.phase.lock? = none) (hr : p.phase.row? = none) : p.Fits w where
  held := fun key h => by rw [hl] at h; cases h
  shows := fun row h => by rw [hr] at h; cases h
  missing := fun key h => by rw [h] at hl; cases hl

/-- A step that leaves store and index as they are. -/
theorem moves_of_eq (hw : w.store.Keyed) (hs : w'.store = w.store) (hx : w'.index = w.index)
    (hn : w.keysDrawn ≤ w'.keysDrawn) (hfits : p'.Fits w')
    (hheld : ∀ key, w.locks.isHeld key = true → p.phase.lock? ≠ some key →
      w'.locks.isHeld key = true)
    (hlock : ∀ key, p'.phase.lock? = some key →
      p.phase.lock? = some key ∨ w.locks.isHeld key = false)
    (howed : p.phase.owed? = none) (hwrote : p'.wrote = p.wrote)
    (hlisted : ∀ key ∈ p'.listed,
      key ∈ p.listed ∨ w.store.HasRow key ∨ w.index.get? key ≠ none)
    (hdrawn : ∀ key, p'.phase = .drawn key →
      p.phase = .drawn key ∨ key = World.nthKey w.keysDrawn) : Moves w w' c p p' where
  fits := hfits
  keyed := by rw [hs]; exact hw
  cell := fun key _ _ => by rw [hs]
  hasRow := fun key h => by rw [hs]; exact h
  raised := fun key h => by rw [hs] at h; exact .inl h
  isHeld := hheld
  lock := hlock
  mirrors := fun key h => .inl (World.Untouched.mirrors ⟨by rw [hs], by rw [hx]⟩ h)
  owed := fun key h => by rw [howed] at h; cases h
  wrote := fun key h => by rw [hwrote] at h; exact .inl h
  wrote_subset := by rw [hwrote]; exact List.Subset.refl _
  docs := fun key h => by rw [hx]; exact .inl h
  listed := hlisted
  keysDrawn := hn
  drawn := hdrawn

section

variable {key : IssueKey} {row i : Issue} {listed wrote : List IssueKey} {phase : Phase}

/-- A step that stores a row, whose document is owed from then on. -/
theorem moves_of_writes {s' : Store} (hw : w.store.Keyed) (hfits : p.Fits w)
    (hwrites : w.store.Writes s' [row]) (hrow : phase.row? = some row)
    (howed : phase.owed? = some row.key) (hlock : phase.lock? = p.phase.lock?)
    (hold : p.phase.owed? = none) (hcell : w.store.HasRow row.key → w.updates? c = some row.key)
    (hnew : w.store.HasRow row.key ∨ p.phase = .drawn row.key) :
    Moves w { w with store := s' } c p { p with phase := phase, wrote := row.key :: p.wrote } where
  fits := by
    refine ⟨fun key hk => hfits.held key (hlock.symm.trans hk), fun row' hr => ?_, fun key hk => ?_⟩
    · cases hrow.symm.trans hr
      exact (hwrites.holds _ List.mem_cons_self).shows
    · rw [show phase = .missing key from hk] at hrow
      cases hrow
  keyed := hwrites.keyed hw
  cell := by
    intro key hk hne
    refine hwrites.others key fun j hj => ?_
    obtain rfl := List.mem_singleton.1 hj
    rintro rfl
    exact hne (hcell hk)
  hasRow := fun key hk => (hwrites.hasRow_iff key).2 (.inl hk)
  raised := by
    intro key hk
    rcases (hwrites.hasRow_iff key).1 hk with hk | ⟨j, hj, rfl⟩
    · exact .inl hk
    · obtain rfl := List.mem_singleton.1 hj
      exact hnew.imp_right fun hp => ⟨hp, List.mem_cons_self⟩
  isHeld := fun key hk _ => hk
  lock := fun key hk => .inl (hlock.symm.trans hk)
  mirrors := by
    intro key hk
    by_cases hrk : row.key = key
    · exact .inr (hrk ▸ howed)
    · refine .inl (World.Untouched.mirrors ⟨hwrites.others key fun j hj => ?_, rfl⟩ hk)
      obtain rfl := List.mem_singleton.1 hj
      exact hrk
  owed := fun key hk => by rw [hold] at hk; cases hk
  wrote := by
    intro key hk
    rcases List.mem_cons.1 hk with rfl | hk
    · exact .inr howed
    · exact .inl hk
  wrote_subset := List.subset_cons_self _ _
  docs := fun key => .inl
  listed := fun key => .inl
  keysDrawn := Nat.le_refl _
  drawn := fun key hk => by
    rw [show phase = .drawn key from hk] at hrow
    cases hrow

/-- A step that amends the index and leaves nothing owed. -/
theorem moves_of_amends {x : Index} (hw : w.store.Keyed) (hfits : p.Fits w)
    (hamends : w.Amends { w with index := x }) (hphase : phase.Settled)
    (hrow : ∀ row, phase.row? = some row → p.phase.row? = some row)
    (hlock : phase.lock? = p.phase.lock?)
    (howed : ∀ key, p.phase.owed? = some key → { w with index := x : World }.Mirrors key)
    (hdocs : ∀ key, w.index.get? key = none → x.get? key = none ∨ w.store.HasRow key) :
    Moves w { w with index := x } c p { p with phase := phase } where
  fits := by
    refine ⟨fun key hk => hfits.held key (hlock.symm.trans hk),
      fun row hr => hfits.shows row (hrow row hr), fun key hk => ?_⟩
    rw [show phase = .missing key from hk] at hphase
    exact hphase.elim
  keyed := hw
  cell := fun key _ _ => rfl
  hasRow := fun key => id
  raised := fun key => .inl
  isHeld := fun key hk _ => hk
  lock := fun key hk => .inl (hlock.symm.trans hk)
  mirrors := fun key hk => .inl ((hamends.inSync (.inl hk)).mirrors hk.hasRow)
  owed := fun key hk => .inl (howed key hk)
  wrote := fun key => .inl
  wrote_subset := List.Subset.refl _
  docs := hdocs
  listed := fun key => .inl
  keysDrawn := Nat.le_refl _
  drawn := fun key hk => by
    rw [show phase = .drawn key from hk] at hphase
    exact hphase.elim

theorem moves_quiet {r : c.Answer} (hw : w.store.Keyed) (hfits : p.Fits w) (hp : p.phase.Settled)
    (hc : c.IsQuiet) (h : w.perform c = (r, w')) :
    c.Plausible r ∧ Moves w w' c p (p.after c r) := by
  have hmoves (hs : w'.store = w.store) (hx : w'.index = w.index) (hl : w'.locks = w.locks)
      (hn : w'.keysDrawn = w.keysDrawn) : Moves w w' c p p := by
    refine moves_of_eq hw hs hx (Nat.le_of_eq hn.symm) ⟨?_, ?_, ?_⟩ (fun key hk _ => ?_)
      (fun key => .inl) (Phase.owed?_of_settled hp) rfl (fun key => .inl) fun key => .inl
    · rw [hl]
      exact hfits.held
    · rw [hs]
      exact hfits.shows
    · rw [hs]
      exact hfits.missing
    · rw [hl]
      exact hk
  cases c with
  | catalog c =>
    obtain ⟨rfl, -⟩ := World.Answers.catalog (.inl h)
    exact ⟨trivial, hmoves rfl rfl rfl rfl⟩
  | permits =>
    obtain ⟨-, rfl⟩ := World.Answers.permits (.inl h)
    exact ⟨trivial, hmoves rfl rfl rfl rfl⟩
  | record =>
    obtain rfl := World.Answers.record (.inl h)
    exact ⟨trivial, hmoves rfl rfl rfl rfl⟩
  | index c =>
    cases c with
    | get key =>
      obtain ⟨rfl, rfl⟩ := World.perform_index_eq h
      exact ⟨trivial, hmoves rfl rfl rfl rfl⟩
    | put | remove | keys | search | listTags | facet => exact hc.elim
  | store | freshKey | enter | leave => exact hc.elim

theorem moves_freshKey (hw : w.store.Keyed)
    (h : w.perform .freshKey = (key, w')) :
    Moves w w' .freshKey ⟨.idle, listed, wrote⟩ ⟨.drawn key, listed, wrote⟩ := by
  obtain ⟨rfl, rfl⟩ := World.Answers.freshKey (.inl h)
  refine moves_of_eq hw rfl rfl (Nat.le_succ _) (fits_of_none rfl rfl) (fun key hk _ => hk)
    (fun key hk => by cases hk) rfl rfl (fun key => .inl) ?_
  rintro _ ⟨⟩
  exact .inr rfl

theorem moves_enter {r : Bool} (hw : w.store.Keyed) (hfree : w.locks.isHeld key = false)
    (h : w.perform (.enter key) = (r, w')) : Moves w w' (.enter key) ⟨.idle, listed, wrote⟩
      (Progress.after ⟨.idle, listed, wrote⟩ (.enter key) r) := by
  obtain ⟨rfl, rfl⟩ := World.Answers.enter (.inl h)
  have hheld (key' : IssueKey) (hk : w.locks.isHeld key' = true) :
      (w.locks.enter key).2.isHeld key' = true := by
    rw [LockTable.isHeld_enter_of_ne, hk]
    rintro rfl
    rw [hfree] at hk
    cases hk
  rw [LockTable.enter_fst]
  cases hpoisoned : w.locks.isPoisoned key with
  | true =>
    exact moves_of_eq hw rfl rfl (Nat.le_refl _) (fits_of_none rfl rfl)
      (fun key hk _ => hheld key hk) (fun key => .inl) rfl rfl (fun key => .inl) fun key => .inl
  | false =>
    refine moves_of_eq hw rfl rfl (Nat.le_refl _)
      ⟨?_, fun row hr => (by cases hr), fun key hk => (by cases hk)⟩ (fun key hk _ => hheld key hk)
      ?_ rfl rfl (fun key => .inl) fun key hk => by cases hk
    · rintro _ ⟨⟩
      exact LockTable.isHeld_enter_self hpoisoned
    · rintro _ ⟨⟩
      exact .inr hfree

theorem moves_leave {r : Unit} (hw : w.store.Keyed) (hp : p.phase.Settled)
    (hkey : p.phase.lock? = some key) (h : w.perform (.leave key) = (r, w')) :
    Moves w w' (.leave key) p { p with phase := .idle } := by
  obtain rfl := World.Answers.leave (.inl h)
  refine moves_of_eq hw rfl rfl (Nat.le_refl _) (fits_of_none rfl rfl) (fun key' hk hne => ?_)
    (fun key hk => by cases hk) (Phase.owed?_of_settled hp) rfl (fun key => .inl)
    fun key hk => by cases hk
  rw [hkey] at hne
  exact (LockTable.isHeld_leave_of_ne fun h => hne (congrArg some h)).trans hk

theorem moves_selectByKey {r : Except StoreError (Option Issue)} (hw : w.store.Keyed)
    (hfits : Progress.Fits w ⟨.holding key, listed, wrote⟩)
    (h : w.perform (.store (.selectByKey key)) = (r, w')) :
    (Call.store (.selectByKey key)).Plausible r ∧ Moves w w' (.store (.selectByKey key))
      ⟨.holding key, listed, wrote⟩
      (Progress.after ⟨.holding key, listed, wrote⟩ (.store (.selectByKey key)) r) := by
  obtain ⟨rfl, hr⟩ := World.Answers.selectByKey (.inl h)
  have hmoves {phase : Phase} (hfits' : Progress.Fits w' ⟨phase, listed, wrote⟩)
      (hlock : phase.lock? = some key) :
      Moves w' w' (.store (.selectByKey key)) ⟨.holding key, listed, wrote⟩
        ⟨phase, listed, wrote⟩ := by
    refine moves_of_eq hw rfl rfl (Nat.le_refl _) hfits' (fun key hk _ => hk)
      (fun key hk => .inl (hlock.symm.trans hk)) rfl rfl (fun key => .inl) fun key hk => ?_
    cases hk
    cases hlock
  have hheld := hfits.held key rfl
  rcases r with e | o
  · exact ⟨trivial, hmoves hfits rfl⟩
  rcases Store.selectByKey_eq_ok (hr o rfl) with ⟨rfl, hnone⟩ | ⟨c, row, rfl, hc, hread⟩
  · refine ⟨trivial, ?_⟩
    by_cases hkey : key ∈ listed
    · rw [show Progress.after ⟨.holding key, listed, wrote⟩ (.store (.selectByKey key)) (.ok none) =
        ⟨.missing key, listed, wrote⟩ from if_pos hkey]
      refine hmoves ⟨?_, fun row hr => (by cases hr), ?_⟩ rfl
      · rintro _ ⟨⟩
        exact hheld
      · rintro _ ⟨⟩
        exact ⟨Store.not_hasRow_iff.2 hnone, hkey⟩
    · rw [show Progress.after ⟨.holding key, listed, wrote⟩ (.store (.selectByKey key)) (.ok none) =
        ⟨.holding key, listed, wrote⟩ from if_neg hkey]
      exact hmoves hfits rfl
  · obtain rfl : row.key = key := Store.key_of_read hw hc hread
    refine ⟨rfl, hmoves ⟨?_, ?_, fun key hk => by cases hk⟩ rfl⟩
    · rintro _ ⟨⟩
      exact hheld
    · rintro _ ⟨⟩
      exact ⟨c, hc, .inr hread⟩

theorem moves_selectAll {r : Except StoreError (List Issue)} (hw : w.store.Keyed)
    (h : w.perform (.store .selectAll) = (r, w')) :
    Moves w w' (.store .selectAll) ⟨.idle, listed, wrote⟩
      (Progress.after ⟨.idle, listed, wrote⟩ (.store .selectAll) r) := by
  obtain ⟨rfl, hr⟩ := World.Answers.selectAll (.inl h)
  rcases r with e | rows
  · exact moves_of_eq hw rfl rfl (Nat.le_refl _) (fits_of_none rfl rfl) (fun key hk _ => hk)
      (fun key => .inl) rfl rfl (fun key => .inl) fun key => .inl
  · refine moves_of_eq hw rfl rfl (Nat.le_refl _) (fits_of_none rfl rfl) (fun key hk _ => hk)
      (fun key => .inl) rfl rfl (fun key hk => ?_) fun key => .inl
    rcases List.mem_append.1 hk with hk | hk
    · rw [Store.selectAll_eq_ok hw (hr rows rfl)] at hk
      exact .inr (.inl (Store.mem_keys_iff.1 hk))
    · exact .inl hk

theorem moves_keys {r : Except IndexError (List IssueKey)} (hw : w.store.Keyed)
    (h : w.perform (.index .keys) = (r, w')) :
    (Call.index .keys).Plausible r ∧ Moves w w' (.index .keys) ⟨.idle, listed, wrote⟩
      (Progress.after ⟨.idle, listed, wrote⟩ (.index .keys) r) := by
  obtain ⟨rfl, rfl⟩ := World.perform_index_eq h
  refine ⟨trivial, moves_of_eq hw rfl rfl (Nat.le_refl _) (fits_of_none rfl rfl)
    (fun key hk _ => hk) (fun key => .inl) rfl rfl (fun key hk => ?_) fun key => .inl⟩
  rcases List.mem_append.1 hk with hk | hk
  · exact .inr (.inr (Option.isSome_iff_ne_none.1 (Index.mem_keys_iff.1 hk)))
  · exact .inl hk

theorem moves_insert {r : Except StoreError (List Issue)} (hw : w.store.Keyed)
    (hfits : Progress.Fits w ⟨.drawn i.key, listed, wrote⟩)
    (h : w.perform (.store (.insert [i])) = (r, w')) :
    (Call.store (.insert [i])).Plausible r ∧ Moves w w' (.store (.insert [i]))
      ⟨.drawn i.key, listed, wrote⟩
      (Progress.after ⟨.drawn i.key, listed, wrote⟩ (.store (.insert [i])) r) := by
  rcases World.Answers.insert (.inl h) with ⟨e, rfl, rfl⟩ | ⟨rows, s', rfl, hi, rfl⟩
  · exact ⟨trivial, moves_of_eq hw rfl rfl (Nat.le_refl _) (fits_of_none rfl rfl)
      (fun key hk _ => hk) (fun key hk => by cases hk) rfl rfl (fun key => .inl)
      fun key hk => by cases hk⟩
  · obtain rfl : rows = [i.inserted w.clock] := hi.rows_eq
    have hfresh : ¬w.store.HasRow i.key := hi.fresh i List.mem_cons_self
    exact ⟨rfl, moves_of_writes hw hfits hi.writes rfl rfl rfl rfl
      (fun hrow => absurd hrow hfresh) (.inr rfl)⟩

theorem moves_update {user : Login} {diffs : List FieldDiff} {r : Except StoreError Issue}
    (hw : w.store.Keyed) (hfits : Progress.Fits w ⟨.knowing row false, listed, wrote⟩)
    (hkey : i.key = row.key) (h : w.perform (.store (.updateWithChange i user diffs)) = (r, w')) :
    (Call.store (.updateWithChange i user diffs)).Plausible r ∧
      Moves w w' (.store (.updateWithChange i user diffs)) ⟨.knowing row false, listed, wrote⟩
        (Progress.after ⟨.knowing row false, listed, wrote⟩
          (.store (.updateWithChange i user diffs)) r) := by
  rcases World.Answers.updateWithChange (.inl h) with ⟨e, rfl, rfl⟩ | ⟨row', s', rfl, hu, rfl⟩
  · exact ⟨trivial, moves_of_eq hw rfl rfl (Nat.le_refl _) hfits (fun key hk _ => hk)
      (fun key => .inl) rfl rfl (fun key => .inl) fun key => .inl⟩
  · have hlock : some row'.key = some row.key := congrArg some (hu.key_eq.trans hkey)
    have hanswer : (w.store.perform w.clock (.updateWithChange i user diffs)).1 = .ok row' :=
      congrArg Prod.fst h
    have hupdates : w.updates? (.store (.updateWithChange i user diffs)) = some row'.key := by
      rw [World.updates?, hanswer]
      rfl
    exact ⟨hu.key_eq, moves_of_writes hw hfits hu.writes rfl rfl hlock rfl
      (fun _ => hupdates) (.inl (hu.key_eq ▸ hu.hasRow))⟩

/-- The document of a row that the call knows is put. -/
theorem moves_put {r : Except IndexError Unit} (hw : w.store.Keyed) (hfits : p.Fits w)
    (hp : p.phase.row? = some row) (h : w.perform (.index (.put row.doc)) = (r, w')) :
    (Call.index (.put row.doc)).Plausible r ∧
      Moves w w' (.index (.put row.doc)) p (p.after (.index (.put row.doc)) r) := by
  obtain ⟨rfl, rfl⟩ := World.perform_index_eq h
  have hshows := hfits.shows row hp
  refine ⟨trivial, moves_of_amends hw hfits (World.amends_put hshows) (Phase.settled_paid hp)
    (fun row' => Phase.row?_of_paid) (Phase.lock?_paid _) (fun key hk => ?_) fun key hdoc => ?_⟩
  · rw [Phase.owed?_eq hp hk]
    exact World.mirrors_put hshows
  · by_cases hk : row.key = key
    · exact .inr (hk ▸ hshows.hasRow)
    · exact .inl (((Index.get?_put _ _ _).trans (if_neg hk)).trans hdoc)

theorem moves_remove {r : Except IndexError Unit} (hw : w.store.Keyed)
    (hfits : Progress.Fits w ⟨.missing key, listed, wrote⟩)
    (h : w.perform (.index (.remove key)) = (r, w')) :
    (Call.index (.remove key)).Plausible r ∧ Moves w w' (.index (.remove key))
      ⟨.missing key, listed, wrote⟩
      (Progress.after ⟨.missing key, listed, wrote⟩ (.index (.remove key)) r) := by
  obtain ⟨rfl, rfl⟩ := World.perform_index_eq h
  refine ⟨trivial, moves_of_amends hw hfits (World.amends_remove (hfits.missing key rfl).1) trivial
    (fun row hr => by cases hr) rfl (fun key hk => by cases hk) fun key' hdoc => .inl ?_⟩
  refine (Index.get?_remove w.index key key').trans ?_
  split_ifs
  · rfl
  · exact hdoc

/-- Every call that may be made in the phase, on a world that is not disturbed. -/
theorem moves_of_permits {r : c.Answer} (hw : w.store.Keyed) (hfits : p.Fits w)
    (hc : p.phase.Permits c) (hfree : ∀ key, c = .enter key → w.locks.isHeld key = false)
    (h : w.perform c = (r, w')) : c.Plausible r ∧ Moves w w' c p (p.after c r) := by
  obtain ⟨phase, listed, wrote⟩ := p
  cases hc with
  | quiet hp hquiet => exact moves_quiet hw hfits hp hquiet h
  | freshKey => exact ⟨trivial, moves_freshKey hw h⟩
  | insert hkey =>
    subst hkey
    exact moves_insert hw hfits h
  | selectAll => exact ⟨trivial, moves_selectAll hw h⟩
  | keys => exact moves_keys hw h
  | enter => exact ⟨trivial, moves_enter hw (hfree _ rfl) h⟩
  | leave hp hkey => exact ⟨trivial, moves_leave hw hp hkey h⟩
  | selectByKey => exact moves_selectByKey hw hfits h
  | update hkey => exact moves_update hw hfits hkey h
  | put hrow => exact moves_put hw hfits hrow h
  | remove => exact moves_remove hw hfits h

theorem Phase.Permits.row_of_put {p : Phase} {d : IssueDoc} (h : p.Permits (.index (.put d))) :
    ∃ row, p.row? = some row ∧ d = row.doc := by
  cases h with
  | quiet hp hquiet => exact hquiet.elim
  | put hrow => exact ⟨_, hrow, rfl⟩

theorem Phase.Permits.lock_of_updates {p : Phase} (h : p.Permits c)
    (hc : w.updates? c = some key) : p.lock? = some key := by
  cases h with
  | update hkey =>
    obtain ⟨i, user, diffs, row, hi, hrow, rfl⟩ := World.updates?_eq_some hc
    cases hi
    rw [(Store.updates_of_updateWithChange (Prod.ext hrow rfl)).key_eq, hkey]
    rfl
  | quiet hp hquiet =>
    cases c with
    | store => exact hquiet.elim
    | index | catalog | permits | freshKey | enter | leave | record => cases hc
  | freshKey | insert | selectAll | keys | enter | leave | selectByKey | put | remove => cases hc

end

/-! ## A step beside other calls -/

/-- Whether the key is still to be drawn, or drawn and not yet used. -/
def Awaited (w : World) (g : ι → Progress) (key : IssueKey) : Prop :=
  (∃ n, w.keysDrawn ≤ n ∧ key = World.nthKey n) ∨ ∃ i, (g i).phase = .drawn key

/-- Whether the calls that go on since `w₀` have left the world in order: each knows what is so, no
two hold one lock, and every row that one of them stored is mirrored or owed. -/
structure Coherent (w₀ w : World) (g : ι → Progress) : Prop where
  keyed : w.store.Keyed
  fits : ∀ i, (g i).Fits w
  exclusive : ∀ i j key, (g i).phase.lock? = some key → (g j).phase.lock? = some key → i = j
  written : ∀ i, ∀ key ∈ (g i).wrote, w.Mirrors key ∨ ∃ j, (g j).phase.owed? = some key
  origin : ∀ key, w.store.HasRow key → w₀.store.HasRow key ∨ ∃ i, key ∈ (g i).wrote
  awaited : ∀ key, Awaited w g key →
    w.store.HasRow key ∨ w.index.get? key = none ∧ ∀ i, key ∉ (g i).listed

/-- What another call knows stays so. -/
theorem Coherent.fits_other (h : Coherent w₀ w g) {i j : ι} (hij : j ≠ i)
    (hm : Moves w w' c (g i) p')
    (hlock : ∀ key, w.updates? c = some key → (g i).phase.lock? = some key)
    (hraised : ∀ row, (g j).phase = .raised row → w.updates? c ≠ some row.key) :
    (g j).Fits w' where
  held := by
    intro key hkey
    exact hm.isHeld key ((h.fits j).held key hkey) fun hi => hij (h.exclusive j i key hkey hi)
  shows := by
    intro row hrow
    have hshows := (h.fits j).shows row hrow
    refine (Store.shows_iff_of_cell?_eq (hm.cell _ hshows.hasRow ?_)).2 hshows
    cases hphase : (g j).phase with
    | raised row' =>
      rw [hphase] at hrow
      cases hrow
      exact hraised row hphase
    | knowing row' owed =>
      rw [hphase] at hrow
      cases hrow
      exact fun hc => hij (h.exclusive j i row.key (by rw [hphase]; rfl) (hlock _ hc))
    | idle | drawn | holding | missing =>
      rw [hphase] at hrow
      cases hrow
  missing := by
    intro key hkey
    obtain ⟨hrow, hlisted⟩ := (h.fits j).missing key hkey
    refine ⟨fun hrow' => ?_, hlisted⟩
    rcases hm.raised key hrow' with hr | ⟨hdrawn, -⟩
    · exact hrow hr
    · rcases h.awaited key (.inr ⟨i, hdrawn⟩) with hr | ⟨-, hnot⟩
      · exact hrow hr
      · exact hnot j hlisted

variable [DecidableEq ι] {i : ι}

/-- The lock that the step takes was free. -/
theorem Coherent.exclusive_step (h : Coherent w₀ w g) (hm : Moves w w' c (g i) p') (j k : ι)
    (key : IssueKey) (hj : (Function.update g i p' j).phase.lock? = some key)
    (hk : (Function.update g i p' k).phase.lock? = some key) : j = k := by
  have hfree {k : ι} (hki : k ≠ i) (hk : (g k).phase.lock? = some key)
      (hi : p'.phase.lock? = some key) : False := by
    rcases hm.lock key hi with hi | hfree
    · exact hki (h.exclusive k i key hk hi)
    · rw [(h.fits k).held key hk] at hfree
      cases hfree
  by_cases hji : j = i <;> by_cases hki : k = i
  · rw [hji, hki]
  · subst hji
    rw [Function.update_self] at hj
    rw [Function.update_of_ne hki] at hk
    exact (hfree hki hk hj).elim
  · subst hki
    rw [Function.update_self] at hk
    rw [Function.update_of_ne hji] at hj
    exact (hfree hji hj hk).elim
  · rw [Function.update_of_ne hji] at hj
    rw [Function.update_of_ne hki] at hk
    exact h.exclusive j k key hj hk

/-- What is mirrored or owed before the step is so after it. -/
theorem Moves.owed_step (hm : Moves w w' c (g i) p') {key : IssueKey}
    (h : w.Mirrors key ∨ ∃ j, (g j).phase.owed? = some key) :
    w'.Mirrors key ∨ ∃ j, (Function.update g i p' j).phase.owed? = some key := by
  have howed (hkey : w'.Mirrors key ∨ p'.phase.owed? = some key) :
      w'.Mirrors key ∨ ∃ j, (Function.update g i p' j).phase.owed? = some key :=
    hkey.imp_right fun hp => ⟨i, by rw [Function.update_self]; exact hp⟩
  rcases h with hmir | ⟨k, hk⟩
  · exact howed (hm.mirrors key hmir)
  · by_cases hki : k = i
    · subst hki
      exact howed (hm.owed key hk)
    · exact .inr ⟨k, by rw [Function.update_of_ne hki]; exact hk⟩

theorem Coherent.written_step (h : Coherent w₀ w g) (hm : Moves w w' c (g i) p') (j : ι)
    (key : IssueKey) (hkey : key ∈ (Function.update g i p' j).wrote) :
    w'.Mirrors key ∨ ∃ j, (Function.update g i p' j).phase.owed? = some key := by
  by_cases hji : j = i
  · subst hji
    rw [Function.update_self] at hkey
    rcases hm.wrote key hkey with hkey | hkey
    · exact hm.owed_step (h.written j key hkey)
    · exact .inr ⟨j, by rw [Function.update_self]; exact hkey⟩
  · rw [Function.update_of_ne hji] at hkey
    exact hm.owed_step (h.written j key hkey)

theorem Coherent.origin_step (h : Coherent w₀ w g) (hm : Moves w w' c (g i) p') (key : IssueKey)
    (hkey : w'.store.HasRow key) :
    w₀.store.HasRow key ∨ ∃ j, key ∈ (Function.update g i p' j).wrote := by
  rcases hm.raised key hkey with hkey | ⟨-, hkey⟩
  · refine (h.origin key hkey).imp_right ?_
    rintro ⟨j, hj⟩
    by_cases hji : j = i
    · subst hji
      exact ⟨j, by rw [Function.update_self]; exact hm.wrote_subset hj⟩
    · exact ⟨j, by rw [Function.update_of_ne hji]; exact hj⟩
  · exact .inr ⟨i, by rw [Function.update_self]; exact hkey⟩

theorem Moves.awaited_of_step (hm : Moves w w' c (g i) p') {key : IssueKey}
    (h : Awaited w' (Function.update g i p') key) : Awaited w g key := by
  rcases h with ⟨n, hn, rfl⟩ | ⟨j, hj⟩
  · exact .inl ⟨n, Nat.le_trans hm.keysDrawn hn, rfl⟩
  · by_cases hji : j = i
    · subst hji
      rw [Function.update_self] at hj
      rcases hm.drawn key hj with hj | rfl
      · exact .inr ⟨j, hj⟩
      · exact .inl ⟨_, Nat.le_refl _, rfl⟩
    · rw [Function.update_of_ne hji] at hj
      exact .inr ⟨j, hj⟩

theorem Coherent.awaited_step (h : Coherent w₀ w g) (hm : Moves w w' c (g i) p') (key : IssueKey)
    (hkey : Awaited w' (Function.update g i p') key) :
    w'.store.HasRow key ∨
      w'.index.get? key = none ∧ ∀ j, key ∉ (Function.update g i p' j).listed := by
  by_cases hrow : w'.store.HasRow key
  · exact .inl hrow
  have hrow₀ : ¬w.store.HasRow key := fun hr => hrow (hm.hasRow key hr)
  obtain ⟨hdoc, hlisted⟩ := (h.awaited key (hm.awaited_of_step hkey)).resolve_left hrow₀
  refine .inr ⟨(hm.docs key hdoc).resolve_right hrow, fun j hj => ?_⟩
  by_cases hji : j = i
  · subst hji
    rw [Function.update_self] at hj
    rcases hm.listed key hj with hj | hr | hne
    · exact hlisted j hj
    · exact hrow₀ hr
    · exact hne hdoc
  · rw [Function.update_of_ne hji] at hj
    exact hlisted j hj

/-- A step that changes a row only under its lock, and none that another call has just raised. -/
theorem Coherent.step (h : Coherent w₀ w g) (hm : Moves w w' c (g i) p')
    (hlock : ∀ key, w.updates? c = some key → (g i).phase.lock? = some key)
    (hraised : ∀ j ≠ i, ∀ row, (g j).phase = .raised row → w.updates? c ≠ some row.key) :
    Coherent w₀ w' (Function.update g i p') where
  keyed := hm.keyed
  fits := by
    intro j
    by_cases hji : j = i
    · subst hji
      rw [Function.update_self]
      exact hm.fits
    · rw [Function.update_of_ne hji]
      exact h.fits_other hji hm hlock (hraised j hji)
  exclusive := h.exclusive_step hm
  written := h.written_step hm
  origin := h.origin_step hm
  awaited := h.awaited_step hm

end Service

end Triage
