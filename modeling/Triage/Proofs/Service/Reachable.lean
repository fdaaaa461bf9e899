import Triage.Proofs.Store.Calls
import Triage.Service.Run

/-!
# Worlds that can be reached

A world starts with a store without rows and goes on by answering calls, disturbed or not and in
whatever order; scripts may break off, and everything but the store may be exchanged.  In memory
every row of a world reached so stands under its own key.
-/

namespace Triage

namespace World

/-- The worlds that can be reached from a store without rows. -/
inductive Reachable : World → Prop
  | start {w : World} (h : ∀ key, ¬w.store.HasRow key) : Reachable w
  | respond {w : World} (hw : Reachable w) (f : Option Failure) (c : Call) :
    Reachable (w.respond f c).2
  | abandon {w : World} (hw : Reachable w) (held : List IssueKey) : Reachable (w.abandon held)
  | turn {w w' : World} (hw : Reachable w) (h : w'.store = w.store) : Reachable w'

variable {w : World}

/-- A step is disturbed alike in all worlds: its answer is withheld and it has no effect, or it has
its whole effect and something is made of its answer. -/
theorem respond_uniform (f : Option Failure) (c : Call) :
    (∃ r, ∀ w : World, w.respond f c = (r, w)) ∨ ∃ g : c.Answer → c.Answer,
      ∀ w : World, w.respond f c = (some (g (w.perform c).1), (w.perform c).2) := by
  rcases f with _ | f
  · exact .inr ⟨id, fun _ => rfl⟩
  cases f with
  | store =>
    cases c with
    | store => exact .inl ⟨_, fun _ => rfl⟩
    | index | catalog | permits | freshKey | enter | leave | record => exact .inr ⟨id, fun _ => rfl⟩
  | index =>
    cases c with
    | index => exact .inl ⟨_, fun _ => rfl⟩
    | store | catalog | permits | freshKey | enter | leave | record => exact .inr ⟨id, fun _ => rfl⟩
  | catalog =>
    cases c with
    | catalog => exact .inl ⟨_, fun _ => rfl⟩
    | store | index | permits | freshKey | enter | leave | record => exact .inr ⟨id, fun _ => rfl⟩
  | empty =>
    cases c with
    | store c =>
      cases c with
      | insert => exact .inr ⟨fun r => r.map fun _ => [], fun _ => rfl⟩
      | selectByKey | selectAll | update | updateWithChange | insertChange | selectChanges =>
        exact .inr ⟨id, fun _ => rfl⟩
    | index c =>
      cases c with
      | get => exact .inl ⟨_, fun _ => rfl⟩
      | put | remove | keys | search | listTags | facet => exact .inr ⟨id, fun _ => rfl⟩
    | catalog | permits | freshKey | enter | leave | record => exact .inr ⟨id, fun _ => rfl⟩
  | panic =>
    by_cases hc : c.isOutside = true
    · exact .inl ⟨none, fun w => if_pos hc⟩
    · exact .inr ⟨id, fun w => if_neg hc⟩

/-- A step has its whole effect or none. -/
theorem respond_snd (w : World) (f : Option Failure) (c : Call) :
    (w.respond f c).2 = w ∨ (w.respond f c).2 = (w.perform c).2 := by
  rcases respond_uniform f c with ⟨r, h⟩ | ⟨g, h⟩ <;> rw [h]
  · exact .inl rfl
  · exact .inr rfl

theorem keyed_perform (h : w.store.Keyed) (c : Call) : (w.perform c).2.store.Keyed := by
  cases c with
  | store c => exact h.perform w.clock c
  | index | catalog | permits | freshKey | enter | leave | record => exact h

theorem keyed_respond (h : w.store.Keyed) (f : Option Failure) (c : Call) :
    (w.respond f c).2.store.Keyed := by
  rcases w.respond_snd f c with hw | hw <;> rw [hw]
  · exact h
  · exact keyed_perform h c

theorem Reachable.keyed (h : w.Reachable) : w.store.Keyed := by
  induction h with
  | start h =>
    intro key i hi
    exact absurd (by rw [Store.HasRow, hi]; rfl) (h key)
  | respond _ f c ih => exact keyed_respond ih f c
  | abandon _ _ ih => exact ih
  | turn _ h ih => exact h ▸ ih

end World

namespace Script

variable {α : Type}

/-- What every step keeps, and breaking off as well, a run keeps. -/
theorem runFrom_keeps {P : World → Prop} (hstep : ∀ w f c, P w → P (w.respond f c).2)
    (habandon : ∀ w held, P w → P (w.abandon held)) {w : World} (hw : P w) (held : List IssueKey)
    (fs : List (Option Failure)) (x : Script α) : P (x.runFrom w held fs).2 := by
  induction x generalizing w held fs with
  | done a => exact hw
  | ask c next ih =>
    have hr := hstep w (fs.head?.getD none) c hw
    unfold runFrom
    split
    case h_1 heq =>
      rw [heq] at hr
      exact ih _ hr _ _
    case h_2 heq =>
      rw [heq] at hr
      exact habandon _ _ hr

theorem keeps_of_run {P : World → Prop} (hstep : ∀ w f c, P w → P (w.respond f c).2)
    (habandon : ∀ w held, P w → P (w.abandon held)) {w w' : World} (hw : P w)
    {fs : List (Option Failure)} {x : Script α} {a : Outcome α} (hrun : x.run w fs = (a, w')) :
    P w' := by
  have h : P (x.run w fs).2 := x.runFrom_keeps hstep habandon hw [] fs
  rwa [hrun] at h

end Script

/-- A run of a script leads from a world that can be reached to another. -/
theorem World.Reachable.runFrom {α : Type} {w : World} (h : w.Reachable) (held : List IssueKey)
    (fs : List (Option Failure)) (x : Script α) : (x.runFrom w held fs).2.Reachable :=
  x.runFrom_keeps (fun _ f c h => h.respond f c) (fun _ held h => h.abandon held) h held fs

end Triage
