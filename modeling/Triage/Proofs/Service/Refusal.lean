import Triage.Proofs.Service.Dialogue
import Triage.Proofs.Store.Calls
import Triage.Service.Run
import Triage.Service.Snapshot

/-!
# A world that may refuse

The answers of a world whose store, index and catalog may refuse any call, which then has no effect.
A script that attains a postcondition with all these answers returns in it, whatever is refused.
-/

namespace Triage

/-- An error that a collaborator gives in place of an answer. -/
inductive Refusal
  | store (e : StoreError)
  | index (e : IndexError)
  | catalog (e : CatalogError)

/-- The failure of a call that is refused. -/
def Refusal.failure : Refusal → Failure
  | .store e => .store e
  | .index e => .index e
  | .catalog e => .catalog e

/-- The failures of calls some of which are refused. -/
def refusals (fs : List (Option Refusal)) : List (Option Failure) :=
  fs.map (·.map Refusal.failure)

/-- Whether the answer is a refusal of the call. -/
def Call.Refuses : (c : Call) → c.Answer → Prop
  | .store _, r => ∃ e, r = .error e
  | .index _, r => ∃ e, r = .error e
  | .catalog _, r => ∃ e, r = .error e
  | _, _ => False

namespace World

variable {w w' : World}

/-- The answer to a call that may be refused. -/
def refusing (w : World) (f : Option Refusal) (c : Call) : c.Answer × World :=
  match f, c with
  | some (.store e), .store _ => (.error e, w)
  | some (.index e), .index _ => (.error e, w)
  | some (.catalog e), .catalog _ => (.error e, w)
  | _, c => w.perform c

theorem respond_refusal (w : World) (f : Option Refusal) (c : Call) :
    w.respond (f.map Refusal.failure) c = (some (w.refusing f c).1, (w.refusing f c).2) := by
  rcases f with _ | ⟨e | e | e⟩ <;> cases c <;> rfl

/-- Whether the call is answered by `r`, with `w'` after it. -/
def Answers (w : World) (c : Call) (r : c.Answer) (w' : World) : Prop :=
  w.perform c = (r, w') ∨ c.Refuses r ∧ w' = w

theorem answers_refusing (w : World) (f : Option Refusal) (c : Call) :
    w.Answers c (w.refusing f c).1 (w.refusing f c).2 := by
  rcases f with _ | ⟨e | e | e⟩ <;> cases c <;> first
    | exact .inl rfl
    | exact .inr ⟨⟨e, rfl⟩, rfl⟩

/-- The dialogue of a world that may refuse. -/
def alone : Dialogue World where
  permits _ _ := True
  answers w c r w' := w.Answers c r w'

/-- The dialogue of a world that answers every call. -/
def undisturbed : Dialogue World where
  permits _ _ := True
  answers w c r w' := w.perform c = (r, w')

end World

theorem Script.Attains.runFrom {α : Type} {x : Script α} {Q : α → World → Prop} {w : World}
    (h : x.Attains World.alone Q w) (held : List IssueKey) (fs : List (Option Refusal)) :
    ∃ a w', x.runFrom w held (refusals fs) = (.returned a, w') ∧ Q a w' := by
  induction x generalizing w held fs with
  | done a => exact ⟨a, w, rfl, h⟩
  | ask c next ih =>
    have hhead : (refusals fs).head?.getD none = (fs.head?.getD none).map Refusal.failure := by
      cases fs <;> rfl
    obtain ⟨a, w', hrun, hQ⟩ := ih _ (h.2 _ _ (w.answers_refusing (fs.head?.getD none) c))
      (Activity.heldAfter held c _) fs.tail
    refine ⟨a, w', ?_, hQ⟩
    rw [Script.runFrom, hhead, World.respond_refusal]
    rw [refusals, List.map_tail] at hrun
    exact hrun

/-- A run that returns does so in what is attained. -/
theorem Script.Attains.of_run {α : Type} {x : Script α} {Q : α → World → Prop} {w w' : World}
    {a : α} {fs : List (Option Refusal)} (h : x.Attains World.alone Q w)
    (hrun : x.run w (refusals fs) = (.returned a, w')) : Q a w' := by
  obtain ⟨b, v, hrun', hQ⟩ := h.runFrom [] fs
  obtain ⟨hb, rfl⟩ := Prod.mk.inj (hrun'.symm.trans hrun)
  exact Outcome.returned.inj hb ▸ hQ

theorem Script.Attains.runFrom_nil {α : Type} {x : Script α} {Q : α → World → Prop} {w : World}
    (h : x.Attains World.undisturbed Q w) (held : List IssueKey) :
    ∃ a w', x.runFrom w held [] = (.returned a, w') ∧ Q a w' := by
  induction x generalizing w held with
  | done a => exact ⟨a, w, rfl, h⟩
  | ask c next ih =>
    obtain ⟨a, w', hrun, hQ⟩ := ih _ (h.2 _ _ rfl) (Activity.heldAfter held c _)
    exact ⟨a, w', hrun, hQ⟩

/-! ## The answers to each call -/

namespace World

variable {w w' : World}

theorem Answers.permits {p : Principal} {op : Operation} {project : ProjectKey} {r : Bool}
    (h : w.Answers (.permits p op project) r w') :
    r = w.gate.permits p op project ∧ w' = w := by
  rcases h with h | ⟨h, -⟩
  · obtain ⟨rfl, rfl⟩ := Prod.mk.inj h
    exact ⟨rfl, rfl⟩
  · exact h.elim

theorem Answers.freshKey {key : IssueKey} (h : w.Answers .freshKey key w') :
    key = nthKey w.keysDrawn ∧ w' = { w with keysDrawn := w.keysDrawn + 1 } := by
  rcases h with h | ⟨h, -⟩
  · obtain ⟨rfl, rfl⟩ := Prod.mk.inj h
    exact ⟨rfl, rfl⟩
  · exact h.elim

theorem Answers.enter {key : IssueKey} {r : Bool} (h : w.Answers (.enter key) r w') :
    r = (w.locks.enter key).1 ∧ w' = { w with locks := (w.locks.enter key).2 } := by
  rcases h with h | ⟨h, -⟩
  · obtain ⟨rfl, rfl⟩ := Prod.mk.inj h
    exact ⟨rfl, rfl⟩
  · exact h.elim

theorem Answers.leave {key : IssueKey} {r : Unit} (h : w.Answers (.leave key) r w') :
    w' = { w with locks := w.locks.leave key } := by
  rcases h with h | ⟨h, -⟩
  · exact (Prod.mk.inj h).2.symm
  · exact h.elim

theorem Answers.record {e : AuditEvent} {r : Unit} (h : w.Answers (.record e) r w') :
    w' = { w with audit := w.audit.record w.auditStamp e } := by
  rcases h with h | ⟨h, -⟩
  · exact (Prod.mk.inj h).2.symm
  · exact h.elim

theorem Answers.catalog {c : CatalogCall} {r : Except CatalogError c.Answer}
    (h : w.Answers (.catalog c) r w') :
    w' = w ∧ ∀ a, r = .ok a → a = w.catalog.answer c := by
  rcases h with h | ⟨⟨e, rfl⟩, rfl⟩
  · obtain ⟨rfl, rfl⟩ := Prod.mk.inj h
    exact ⟨rfl, fun a ha => (Except.ok.inj ha).symm⟩
  · exact ⟨rfl, fun a ha => nomatch ha⟩

theorem Answers.store {c : StoreCall} {r : Except StoreError c.Answer}
    (h : w.Answers (.store c) r w') :
    (∃ e, r = .error e ∧ w' = w) ∨ ∃ a s', r = .ok a ∧
      w.store.perform w.clock c = (.ok a, s') ∧ w' = { w with store := s' } := by
  rcases h with h | ⟨⟨e, rfl⟩, rfl⟩
  · have hp : ((w.store.perform w.clock c).1, { w with store := (w.store.perform w.clock c).2 }) =
        (r, w') := h
    obtain ⟨rfl, rfl⟩ := Prod.mk.inj hp
    cases hr : (w.store.perform w.clock c).1 with
    | error e => exact .inl ⟨e, rfl, by rw [Store.perform_of_error hr]⟩
    | ok a => exact .inr ⟨a, _, rfl, Prod.ext hr rfl, rfl⟩
  · exact .inl ⟨e, rfl, rfl⟩

theorem Answers.selectByKey {key : IssueKey} {r : Except StoreError (Option Issue)}
    (h : w.Answers (.store (.selectByKey key)) r w') :
    w' = w ∧ ∀ o, r = .ok o → w.read (.selectByKey key) = .ok o := by
  rcases h.store with ⟨e, rfl, rfl⟩ | ⟨a, s', rfl, hp, rfl⟩
  · exact ⟨rfl, fun o ho => nomatch ho⟩
  · obtain rfl : w.store = s' :=
      (Store.perform_selectByKey _ _ _).symm.trans (congrArg Prod.snd hp)
    exact ⟨rfl, fun o ho => Except.ok.inj ho ▸ congrArg Prod.fst hp⟩

theorem Answers.selectAll {r : Except StoreError (List Issue)}
    (h : w.Answers (.store .selectAll) r w') :
    w' = w ∧ ∀ rows, r = .ok rows → w.read .selectAll = .ok rows := by
  rcases h.store with ⟨e, rfl, rfl⟩ | ⟨a, s', rfl, hp, rfl⟩
  · exact ⟨rfl, fun o ho => nomatch ho⟩
  · obtain rfl : w.store = s' := (Store.perform_selectAll _ _).symm.trans (congrArg Prod.snd hp)
    exact ⟨rfl, fun o ho => Except.ok.inj ho ▸ congrArg Prod.fst hp⟩

theorem Answers.insert {issues : List Issue} {r : Except StoreError (List Issue)}
    (h : w.Answers (.store (.insert issues)) r w') :
    (∃ e, r = .error e ∧ w' = w) ∨ ∃ rows s', r = .ok rows ∧
      w.store.Inserts s' w.clock issues rows ∧ w' = { w with store := s' } := by
  rcases h.store with h | ⟨rows, s', hr, hp, hw⟩
  · exact .inl h
  · exact .inr ⟨rows, s', hr, Store.inserts_of_insert hp, hw⟩

theorem Answers.updateWithChange {i : Issue} {user : Login} {diffs : List FieldDiff}
    {r : Except StoreError Issue} (h : w.Answers (.store (.updateWithChange i user diffs)) r w') :
    (∃ e, r = .error e ∧ w' = w) ∨ ∃ row s', r = .ok row ∧
      w.store.Updates s' w.clock i row user diffs ∧ w' = { w with store := s' } := by
  rcases h.store with h | ⟨row, s', hr, hp, hw⟩
  · exact .inl h
  · exact .inr ⟨row, s', hr, Store.updates_of_updateWithChange hp, hw⟩

/-- A call of the store that only reads, answered without disturbance. -/
theorem perform_read_eq {c : StoreCall} {r : Except StoreError c.Answer}
    (hc : (w.store.perform w.clock c).2 = w.store) (h : w.perform (.store c) = (r, w')) :
    w' = w ∧ w.read c = r := by
  refine ⟨(congrArg Prod.snd h).symm.trans ?_, congrArg Prod.fst h⟩
  change { w with store := (w.store.perform w.clock c).2 } = w
  rw [hc]

theorem perform_index_eq {c : IndexCall} {r : Except IndexError c.Answer}
    (h : w.perform (.index c) = (r, w')) :
    r = .ok (w.index.perform c).1 ∧ w' = { w with index := (w.index.perform c).2 } :=
  ⟨(congrArg Prod.fst h).symm, (congrArg Prod.snd h).symm⟩

theorem Answers.index {c : IndexCall} {r : Except IndexError c.Answer}
    (h : w.Answers (.index c) r w') :
    (∃ e, r = .error e ∧ w' = w) ∨
      r = .ok (w.index.perform c).1 ∧ w' = { w with index := (w.index.perform c).2 } := by
  rcases h with h | ⟨⟨e, rfl⟩, rfl⟩
  · obtain ⟨rfl, rfl⟩ := Prod.mk.inj h
    exact .inr ⟨rfl, rfl⟩
  · exact .inl ⟨e, rfl, rfl⟩

end World

end Triage
