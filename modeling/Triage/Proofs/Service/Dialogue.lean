import Triage.Service.Script

/-!
# What a script attains

A dialogue says which calls may be made in a state, and which answers may come back with which state
after them.  A script attains a postcondition from a state if all its calls may be made and every
way for them to be answered ends in the postcondition.
-/

namespace Triage

/-- Which calls may be made, and how they may be answered. -/
structure Dialogue (σ : Type) where
  permits : σ → Call → Prop
  answers : σ → (c : Call) → c.Answer → σ → Prop

variable {σ α β : Type}

/-- Whether the script makes only calls that may be made and ends in the postcondition. -/
def Script.Attains (D : Dialogue σ) (Q : α → σ → Prop) : Script α → σ → Prop
  | .done a, s => Q a s
  | .ask c next, s => D.permits s c ∧ ∀ r s', D.answers s c r s' → (next r).Attains D Q s'

/-- Whether the attempt makes only calls that may be made and ends in the postcondition. -/
def Attempt.Attains (D : Dialogue σ) (Q : Except ServiceError α → σ → Prop) (x : Attempt α)
    (s : σ) : Prop :=
  Script.Attains D Q x.run s

variable {D : Dialogue σ} {s : σ}

namespace Script

variable {Q Q' : α → σ → Prop}

theorem Attains.mono (hQ : ∀ a s, Q a s → Q' a s) {x : Script α} (h : x.Attains D Q s) :
    x.Attains D Q' s := by
  induction x generalizing s with
  | done a => exact hQ a s h
  | ask c next ih => exact ⟨h.1, fun r s' hr => ih r (h.2 r s' hr)⟩

theorem attains_bind {x : Script α} {f : α → Script β} {Q : β → σ → Prop} :
    (x >>= f).Attains D Q s ↔ x.Attains D (fun a s' => (f a).Attains D Q s') s := by
  change (x.bind f).Attains D Q s ↔ _
  induction x generalizing s with
  | done a => rfl
  | ask c next ih => exact and_congr_right fun _ => forall₃_congr fun r s' _ => ih r

theorem attains_single {c : Call} {Q : c.Answer → σ → Prop} :
    (single c).Attains D Q s ↔ D.permits s c ∧ ∀ r s', D.answers s c r s' → Q r s' :=
  Iff.rfl

theorem attains_pure {a : α} : (pure a : Script α).Attains D Q s ↔ Q a s := Iff.rfl

end Script

namespace Attempt

variable {Q Q' : Except ServiceError α → σ → Prop}

theorem Attains.mono (hQ : ∀ r s, Q r s → Q' r s) {x : Attempt α} (h : x.Attains D Q s) :
    x.Attains D Q' s :=
  Script.Attains.mono hQ h

/-- What has to be attained by the first part of an attempt that goes on: where it has a value, what
the rest attains, and where it fails, the postcondition of the whole. -/
def Then (D : Dialogue σ) (f : α → Attempt β) (Q : Except ServiceError β → σ → Prop) :
    Except ServiceError α → σ → Prop
  | .ok a, s => (f a).Attains D Q s
  | .error e, s => Q (.error e) s

theorem attains_bind {x : Attempt α} {f : α → Attempt β} {Q : Except ServiceError β → σ → Prop} :
    (x >>= f).Attains D Q s ↔ x.Attains D (Then D f Q) s := by
  unfold Attains
  rw [ExceptT.run_bind, Script.attains_bind]
  constructor <;> intro h <;> refine h.mono fun r s' hr => ?_ <;> cases r <;> exact hr

theorem attains_pure {a : α} : (pure a : Attempt α).Attains D Q s ↔ Q (.ok a) s := Iff.rfl

theorem attains_found {o : Option α} {e : ServiceError} :
    (found o e).Attains D Q s ↔ (∀ a, o = some a → Q (.ok a) s) ∧ (o = none → Q (.error e) s) := by
  cases o <;> simp [Attains, found, Script.Attains, ExceptT.run, ExceptT.mk]

theorem attains_store {c : StoreCall} {Q : Except ServiceError c.Answer → σ → Prop} :
    (store c).Attains D Q s ↔ D.permits s (.store c) ∧
      ∀ r s', D.answers s (.store c) r s' → Q (r.mapError .store) s' := Iff.rfl

theorem attains_index {c : IndexCall} {Q : Except ServiceError c.Answer → σ → Prop} :
    (index c).Attains D Q s ↔ D.permits s (.index c) ∧
      ∀ r s', D.answers s (.index c) r s' → Q (r.mapError .index) s' := Iff.rfl

theorem attains_catalog {c : CatalogCall} {Q : Except ServiceError c.Answer → σ → Prop} :
    (catalog c).Attains D Q s ↔ D.permits s (.catalog c) ∧
      ∀ r s', D.answers s (.catalog c) r s' → Q (r.mapError .catalog) s' := Iff.rfl

theorem attains_authorize {p : Principal} {op : Operation} {project : ProjectKey}
    {Q : Except ServiceError Unit → σ → Prop} :
    (authorize p op project).Attains D Q s ↔ D.permits s (.permits p op project) ∧
      ∀ r s', D.answers s (.permits p op project) r s' →
        Q (if r then .ok () else .error .forbidden) s' := Iff.rfl

theorem attains_freshKey {Q : Except ServiceError IssueKey → σ → Prop} :
    freshKey.Attains D Q s ↔ D.permits s .freshKey ∧
      ∀ r s', D.answers s .freshKey r s' → Q (.ok r) s' := Iff.rfl

theorem attains_found_of {o : Option α} {e : ServiceError} (hok : ∀ a, o = some a → Q (.ok a) s)
    (herr : Q (.error e) s) : (found o e).Attains D Q s :=
  attains_found.2 ⟨hok, fun _ => herr⟩

end Attempt

/-- Whether the catalog may be asked, with nothing changed, and what is known of its answers. -/
structure Dialogue.Consults (D : Dialogue σ) (s : σ) (Known : (c : CatalogCall) → c.Answer → Prop) :
    Prop where
  permits : ∀ c, D.permits s (.catalog c)
  answers : ∀ c r s', D.answers s (.catalog c) r s' → s' = s ∧ ∀ a, r = .ok a → Known c a

theorem Attempt.attains_consult {c : CatalogCall} {Known : (c : CatalogCall) → c.Answer → Prop}
    (h : D.Consults s Known) {Q : Except ServiceError c.Answer → σ → Prop}
    (hok : ∀ a, Known c a → Q (.ok a) s) (herr : ∀ e : CatalogError, Q (.error (.catalog e)) s) :
    (catalog c).Attains D Q s := by
  refine attains_catalog.2 ⟨h.permits c, fun r s' hr => ?_⟩
  obtain ⟨rfl, hknown⟩ := h.answers c r s' hr
  cases r with
  | ok a => exact hok a (hknown a rfl)
  | error e => exact herr e

end Triage
