import Triage.Issue.Basic
import Triage.Workflow

/-!
# What the transitions allow

A transition is offered by the states from which it leads somewhere, and from all others it fails.
Status and resolution are in step if an issue has a resolution that settles it just while its status
says so; every move of the table keeps them in step.
-/

namespace Triage

/-- The statuses of an issue that is still to be dealt with. -/
def Status.pending : List Status := [.opened, .confirmed, .reopened]

/-- The statuses of an issue that is settled. -/
def Status.settled : List Status := [.resolved, .closed]

/-- The resolutions that settle an issue. -/
def Resolution.settling : List Resolution := [.fixed, .falsePositive, .removed, .wontFix]

theorem Resolution.isResolved_iff {r : Resolution} : r.isResolved = true ↔ r ∈ settling := by
  cases r <;> decide

namespace Workflow

variable {s s' : State} {t : Transition}

/-! ## Transitions that are offered -/

theorem mem_offered_iff :
    t ∈ offered s ↔ ∃ m ∈ table, m.transition = t ∧ s.status ∈ m.sources := by
  simp only [offered, List.mem_map, List.mem_filter, List.contains_iff_mem]
  exact exists_congr fun m =>
    ⟨fun ⟨⟨hm, hs⟩, ht⟩ => ⟨hm, ht, hs⟩, fun ⟨hm, ht, hs⟩ => ⟨⟨hm, hs⟩, ht⟩⟩

theorem find?_table_eq_some {m : Move}
    (h : (table.find? fun m => m.transition = t && m.sources.contains s.status) = some m) :
    m ∈ table ∧ m.transition = t ∧ s.status ∈ m.sources := by
  have hfound := List.find?_some h
  simp only [Bool.and_eq_true, decide_eq_true_eq, List.contains_iff_mem] at hfound
  exact ⟨List.mem_of_find?_eq_some h, hfound⟩

theorem apply_eq_ok (h : apply s t = .ok s') : ∃ m ∈ table, m.transition = t ∧
    s.status ∈ m.sources ∧ s' = ⟨m.target, m.effect.apply s.resolution⟩ := by
  unfold apply at h
  split at h
  case h_1 m hfind =>
    obtain ⟨hm, ht, hs⟩ := find?_table_eq_some hfind
    exact ⟨m, hm, ht, hs, (Except.ok.inj h).symm⟩
  case h_2 => cases h

theorem apply_of_not_offered (h : t ∉ offered s) : apply s t = .error ⟨t, s.status⟩ := by
  unfold apply
  split
  case h_1 m hfind => exact absurd (mem_offered_iff.2 ⟨m, find?_table_eq_some hfind⟩) h
  case h_2 => rfl

/-- The transitions that are offered are those that lead somewhere. -/
theorem mem_offered_iff_exists_apply : t ∈ offered s ↔ ∃ s', apply s t = .ok s' := by
  constructor
  · intro h
    obtain ⟨m, hm, ht, hs⟩ := mem_offered_iff.1 h
    unfold apply
    split
    case h_1 => exact ⟨_, rfl⟩
    case h_2 hnone => exact absurd (List.find?_eq_none.1 hnone m hm) (by simp [ht, hs])
  · rintro ⟨s', h⟩
    obtain ⟨m, hm, ht, hs, -⟩ := apply_eq_ok h
    exact mem_offered_iff.2 ⟨m, hm, ht, hs⟩

/-! ## Status and resolution in step -/

/-- Whether status and resolution are in step: a pending issue has no resolution, and a settled one
has one that settles it. -/
inductive State.WellFormed : State → Prop
  | pending {status : Status} (h : status ∈ Status.pending) : WellFormed ⟨status, none⟩
  | settled {status : Status} {r : Resolution} (hr : r ∈ Resolution.settling)
    (h : status ∈ Status.settled) : WellFormed ⟨status, some r⟩

/-- Whether a move keeps them so: it clears the resolution of what becomes pending, it sets one that
settles what becomes settled, and it keeps that of what was settled and stays so. -/
def Move.Fits : Move → Prop
  | ⟨_, _, target, .clear⟩ => target ∈ Status.pending
  | ⟨_, _, target, .set r⟩ => target ∈ Status.settled ∧ r ∈ Resolution.settling
  | ⟨_, sources, target, .keep⟩ => target ∈ Status.settled ∧ ∀ s ∈ sources, s ∈ Status.settled

instance : DecidablePred Move.Fits
  | ⟨_, _, target, .clear⟩ => inferInstanceAs (Decidable (target ∈ Status.pending))
  | ⟨_, _, target, .set r⟩ =>
    inferInstanceAs (Decidable (target ∈ Status.settled ∧ r ∈ Resolution.settling))
  | ⟨_, sources, target, .keep⟩ =>
    inferInstanceAs (Decidable (target ∈ Status.settled ∧ ∀ s ∈ sources, s ∈ Status.settled))

theorem fits_of_mem_table : ∀ m ∈ table, m.Fits := by decide

theorem not_pending_of_settled : ∀ status ∈ Status.settled, status ∉ Status.pending := by decide

theorem Move.Fits.wellFormed {m : Move} (hm : m.Fits) (hsource : s.status ∈ m.sources)
    (hs : s.WellFormed) : State.WellFormed ⟨m.target, m.effect.apply s.resolution⟩ := by
  obtain ⟨t, sources, target, effect⟩ := m
  cases effect with
  | clear => exact .pending hm
  | set r => exact .settled hm.2 hm.1
  | keep =>
    cases hs with
    | pending h => exact absurd h (not_pending_of_settled _ (hm.2 _ hsource))
    | settled hr => exact .settled hr hm.1

/-- A transition keeps status and resolution in step. -/
theorem wellFormed_of_apply (h : apply s t = .ok s') (hs : s.WellFormed) : s'.WellFormed := by
  obtain ⟨m, hm, -, hsource, rfl⟩ := apply_eq_ok h
  exact (fits_of_mem_table m hm).wellFormed hsource hs

end Workflow

end Triage
