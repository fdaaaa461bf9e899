import Triage.Proofs.Service.Mirror

/-!
# Calls amid changes

A call that goes on while other callers change issues: after each of its steps, complete changes run
whose keys are not held, and its own calls may be refused.  What happens is kept in a trace.
-/

namespace Triage

/-- The issue that the document shows. -/
def IssueDoc.issue (d : IssueDoc) : Issue := ⟨d.toIssueFields⟩

namespace Service

/-- A change that another caller asks for. -/
structure Change where
  principal : Principal
  key : IssueKey
  mutation : Mutation

/-- What happens in the course of a call: a step of it with the answer, or a change by another
caller with its end. -/
inductive Happening
  | step (c : Call) (r : c.Answer)
  | change (x : Change) (o : Outcome (Except ServiceError IssueDoc))

/-- The error of a call that failed. -/
def Happening.error? : Happening → Option ServiceError
  | .step (.store _) (.error e) => some (.store e)
  | .step (.index _) (.error e) => some (.index e)
  | .step (.catalog _) (.error e) => some (.catalog e)
  | _ => none

/-- The document of the latest change of a key, if there is one. -/
def latest (trace : List Happening) (key : IssueKey) : Option IssueDoc :=
  trace.foldl (fun d? h =>
    match h with
    | .change x (.returned (.ok d)) => if x.key = key then some d else d?
    | _ => d?) none

/-- Whether it is not a change that failed. -/
def Happening.succeeded : Happening → Bool
  | .step _ _ | .change _ (.returned (.ok _)) => true
  | .change _ _ => false

/-- Whether all changes by other callers succeeded. -/
def AllSucceed (trace : List Happening) : Prop := ∀ h ∈ trace, h.succeeded = true

instance (trace : List Happening) : Decidable (AllSucceed trace) :=
  inferInstanceAs (Decidable (∀ h ∈ trace, h.succeeded = true))

/-- A world with what has happened so far, the latest last. -/
structure Course where
  world : World
  trace : List Happening := []

namespace Course

/-- The errors of the calls that failed. -/
def failures (s : Course) : List ServiceError := s.trace.filterMap Happening.error?

/-- A complete change by another caller, unless the lock of its key is held. -/
def interrupt (limits : ServiceLimits) (s : Course) (x : Change) : Course :=
  if s.world.locks.isHeld x.key then s
  else
    let (o, w) := (mutate limits x.principal x.key x.mutation).run s.world []
    ⟨w, s.trace ++ [.change x o]⟩

/-- Whether the latest change of each key is what the store holds. -/
def Standing (s : Course) : Prop :=
  ∀ key d, latest s.trace key = some d → d.key = key ∧ s.world.store.Holds d.issue

/-- Whether one course may come after the other: the index has been amended, no call has failed, and
no change has been lost. -/
structure Precedes (s s' : Course) : Prop where
  amends : s.world.Amends s'.world
  trace : s.trace <+: s'.trace
  standing : s.Standing → s'.Standing

/-- Whether only changes by other callers, all of them successful, lie between the courses. -/
structure Interlude (s s' : Course) : Prop where
  calm : s.world.Calm s'.world
  trace : s.trace <+: s'.trace
  standing : s.Standing → s'.Standing
  failures : s'.failures = s.failures

end Course

/-- What the world does at a step: it refuses the call or not, and lets others change issues. -/
structure Beat where
  refused : Option Refusal := none
  changes : List Change := []

/-- The answer to a step, and the course after the changes that follow on it. -/
def Course.answer (limits : ServiceLimits) (s : Course) (b : Beat) (c : Call) : c.Answer × Course :=
  let (r, w) := s.world.refusing b.refused c
  (r, b.changes.foldl (interrupt limits) ⟨w, s.trace ++ [.step c r]⟩)

end Service

open Service (Course Beat)

/-- Runs a script amid the changes of other callers. -/
def Script.runAmid {α : Type} (limits : ServiceLimits) (s : Course) (beats : List Beat) :
    Script α → α × Course
  | .done a => (a, s)
  | .ask c next =>
    let (r, s') := s.answer limits (beats.head?.getD {}) c
    (next r).runAmid limits s' beats.tail

/-- Whether every row in memory stands under its key and no lock is poisoned. -/
structure World.Sane (w : World) : Prop where
  keyed : w.store.Keyed
  unpoisoned : ∀ key, w.locks.isPoisoned key = false

theorem World.Amends.sane {w w' : World} (h : w.Amends w') (hw : w.Sane) : w'.Sane :=
  ⟨h.keyed hw.keyed, fun key => (h.poisoned key).trans (hw.unpoisoned key)⟩

namespace Service

/-- The dialogue of a script amid the changes of other callers. -/
def amid : Dialogue Course where
  permits _ _ := True
  answers s c r s' := ∃ w, s.world.Answers c r w ∧ .step c r ∈ s'.trace ∧
    (w.Sane → Course.Interlude ⟨w, s.trace ++ [.step c r]⟩ s')

variable {limits : ServiceLimits} {s s₁ s' : Course} {x : Change} {key : IssueKey}

theorem latest_append_step (trace : List Happening) (c : Call) (r : c.Answer) (key : IssueKey) :
    latest (trace ++ [.step c r]) key = latest trace key := by
  rw [latest, List.foldl_append]
  rfl

theorem latest_append_change (trace : List Happening) (x : Change) (d : IssueDoc) (key : IssueKey) :
    latest (trace ++ [.change x (.returned (.ok d))]) key =
      if x.key = key then some d else latest trace key := by
  rw [latest, List.foldl_append]
  rfl

theorem AllSucceed.of_prefix {t t' : List Happening} (h : AllSucceed t') (hp : t <+: t') :
    AllSucceed t :=
  fun x hx => h x (hp.subset hx)

theorem AllSucceed.of_change {t : List Happening} {o : Outcome (Except ServiceError IssueDoc)}
    (h : AllSucceed t) (ho : .change x o ∈ t) : ∃ d, o = .returned (.ok d) := by
  have hs := h _ ho
  rcases o with (_ | d) | _
  · cases hs
  · exact ⟨d, rfl⟩
  · cases hs

namespace Course

theorem Interlude.refl (s : Course) : s.Interlude s := ⟨.refl _, List.prefix_rfl, id, rfl⟩

theorem Interlude.trans (h : s.Interlude s₁) (h' : s₁.Interlude s') : s.Interlude s' :=
  ⟨h.calm.trans h'.calm, h.trace.trans h'.trace, h'.standing ∘ h.standing,
    h'.failures.trans h.failures⟩

theorem Interlude.precedes (h : s.Interlude s') : s.Precedes s' :=
  ⟨h.calm.toAmends, h.trace, h.standing⟩

theorem Precedes.refl (s : Course) : s.Precedes s := ⟨.refl _, List.prefix_rfl, id⟩

theorem Precedes.trans (h : s.Precedes s₁) (h' : s₁.Precedes s') : s.Precedes s' :=
  ⟨h.amends.trans h'.amends, h.trace.trans h'.trace, h'.standing ∘ h.standing⟩

theorem prefix_interrupt (limits : ServiceLimits) (s : Course) (x : Change) :
    s.trace <+: (s.interrupt limits x).trace := by
  unfold interrupt
  split_ifs
  · exact List.prefix_rfl
  · exact List.prefix_append _ _

/-- A change by another caller that succeeds, or has to wait. -/
theorem interlude_interrupt (hw : s.world.Sane)
    (hok : AllSucceed (s.interrupt limits x).trace) : s.Interlude (s.interrupt limits x) := by
  unfold interrupt at hok ⊢
  split_ifs at hok ⊢ with hheld
  · exact .refl s
  · obtain ⟨r, w', hrun, hends⟩ :=
      ((IssueCall.change x.principal x.key x.mutation).attains_script limits s.world).runFrom [] []
    have hrun' : (mutate limits x.principal x.key x.mutation).run s.world [] = (.returned r, w') :=
      hrun
    rw [hrun'] at hok ⊢
    obtain ⟨d, hd⟩ := hok.of_change (List.mem_append_right _ List.mem_cons_self)
    cases hd
    refine ⟨calm_of_change hw.keyed (hw.unpoisoned _) (by simpa using hheld) hends,
      List.prefix_append _ _, fun hs key d' hd' => ?_, ?_⟩
    · obtain ⟨old, row, hstored, rfl, -⟩ := hends.changed hw.keyed
      rw [latest_append_change] at hd'
      split_ifs at hd' with hk
      · cases hd'
        exact ⟨hstored.key_eq.trans hk, hstored.writes.holds row (by simp)⟩
      · obtain ⟨rfl, hholds⟩ := hs key d' hd'
        refine ⟨rfl, (Store.holds_iff_of_cell?_eq ?_).2 hholds⟩
        refine hstored.writes.others _ fun j hj => ?_
        obtain rfl := List.mem_singleton.1 hj
        exact fun hj => hk (hstored.key_eq.symm.trans hj)
    · simp [failures, Happening.error?]

theorem prefix_foldl_interrupt (limits : ServiceLimits) (s : Course) (xs : List Change) :
    s.trace <+: (xs.foldl (interrupt limits) s).trace := by
  induction xs generalizing s with
  | nil => exact List.prefix_rfl
  | cons x xs ih => exact (prefix_interrupt limits s x).trans (ih _)

theorem interlude_foldl_interrupt {xs : List Change} (hw : s.world.Sane)
    (hok : AllSucceed (xs.foldl (interrupt limits) s).trace) :
    s.Interlude (xs.foldl (interrupt limits) s) := by
  induction xs generalizing s with
  | nil => exact .refl s
  | cons x xs ih =>
    have hx := interlude_interrupt hw (hok.of_prefix (prefix_foldl_interrupt limits _ xs))
    exact hx.trans (ih (hx.calm.sane hw) hok)

theorem prefix_answer (limits : ServiceLimits) (s : Course) (b : Beat) (c : Call) :
    s.trace <+: (s.answer limits b c).2.trace := by
  have hstep : s.trace <+: s.trace ++ [.step c (s.world.refusing b.refused c).1] :=
    List.prefix_append _ _
  exact hstep.trans (prefix_foldl_interrupt limits
    ⟨(s.world.refusing b.refused c).2, s.trace ++ [.step c (s.world.refusing b.refused c).1]⟩ _)

theorem answers_answer {b : Beat} {c : Call} (hok : AllSucceed (s.answer limits b c).2.trace) :
    amid.answers s c (s.answer limits b c).1 (s.answer limits b c).2 := by
  refine ⟨_, s.world.answers_refusing b.refused c, ?_, fun hw => interlude_foldl_interrupt hw hok⟩
  exact (prefix_foldl_interrupt limits _ _).subset (List.mem_append_right _ List.mem_cons_self)

end Course

end Service

namespace Script

open Service (amid AllSucceed)

variable {α : Type} {limits : ServiceLimits} {s : Course}

theorem prefix_runAmid (limits : ServiceLimits) (s : Course) (beats : List Beat) (x : Script α) :
    s.trace <+: (x.runAmid limits s beats).2.trace := by
  induction x generalizing s beats with
  | done a => exact List.prefix_rfl
  | ask c next ih =>
    exact (Course.prefix_answer limits s (beats.head?.getD {}) c).trans (ih _ _ _)

/-- A script that attains a postcondition amid changes ends in it if all of them succeed. -/
theorem Attains.runAmid {x : Script α} {Q : α → Course → Prop} (h : x.Attains amid Q s)
    {beats : List Beat} (hok : AllSucceed (x.runAmid limits s beats).2.trace) :
    Q (x.runAmid limits s beats).1 (x.runAmid limits s beats).2 := by
  induction x generalizing s beats with
  | done a => exact h
  | ask c next ih =>
    exact ih _ (h.2 _ _ (Course.answers_answer (hok.of_prefix (prefix_runAmid limits _ _ _)))) hok

/-- What a script attains amid changes it attains alone, where there are none. -/
theorem Attains.alone_of_amid {x : Script α} {Q : α → Course → Prop} (h : x.Attains amid Q s) :
    x.Attains World.alone (fun a w => ∃ trace, Q a ⟨w, trace⟩) s.world := by
  induction x generalizing s with
  | done a => exact ⟨s.trace, h⟩
  | ask c next ih =>
    refine ⟨trivial, fun r w hr => ?_⟩
    have hs : amid.answers s c r ⟨w, s.trace ++ [.step c r]⟩ :=
      ⟨w, hr, List.mem_append_right _ List.mem_cons_self, fun _ => .refl _⟩
    exact ih r (h.2 r _ hs)

end Script

end Triage
