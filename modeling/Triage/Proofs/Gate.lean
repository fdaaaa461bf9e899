import Mathlib.Data.Set.Insert
import Mathlib.Tactic.Tauto
import Triage.Gate

/-!
# The grants in force

A call of a gate puts one grant in force or takes one out, and answers whether it was there to be
taken out.  So the grants in force are a set that each call changes in one place.  A decision asks
whether one of them entitles the principal; it stays as it is while the calls are about others.
-/

namespace Triage

/-- Whether the grant lets the principal do what is done with issues of the project. -/
structure RoleGrant.Entitles (g : RoleGrant) (p : Principal) (project : ProjectKey) : Prop where
  project_eq : g.project = project
  subject : g.subject = .user p.login ∨ ∃ name ∈ p.groups, g.subject = .group name
  role : g.role = .user ∨ g.role = .issueAdmin ∨ g.role = .admin

namespace GateCall

/-- The grant that the call is about. -/
def about : GateCall → RoleGrant
  | .grant g | .revoke g => g
  | .grantUser project login role => ⟨project, .user login, role⟩
  | .grantGroup project name role => ⟨project, .group name, role⟩

/-- Whether the call takes its grant out of force. -/
def revokes : GateCall → Bool
  | .revoke _ => true
  | _ => false

/-- The grants in force after the call, from those before it. -/
def effect (c : GateCall) (s : Set RoleGrant) : Set RoleGrant :=
  if c.revokes then s \ {c.about} else insert c.about s

end GateCall

/-! ## Decisions -/

theorem GrantSubject.covers_iff {s : GrantSubject} {p : Principal} :
    s.covers p = true ↔ s = .user p.login ∨ ∃ name ∈ p.groups, s = .group name := by
  cases s <;> simp [covers]

theorem Role.satisfies_requiredRole_iff {r : Role} {op : Operation} :
    r.satisfies op.requiredRole = true ↔ r = .user ∨ r = .issueAdmin ∨ r = .admin := by
  cases r <;> simp [satisfies, Operation.requiredRole]

theorem Role.mem_all (r : Role) : r ∈ Label.all (α := Role) := by
  cases r <;> decide

namespace Gate

variable {gate : Gate} {g g' : RoleGrant} {p : Principal} {op : Operation} {project : ProjectKey}

/-- The grants in force. -/
def inForce (gate : Gate) : Set RoleGrant := {g | g ∈ gate.grants}

theorem mem_rolesOf_iff {r : Role} : r ∈ gate.rolesOf p project ↔
    ∃ g ∈ gate.inForce, g.project = project ∧ g.subject.covers p = true ∧ g.role = r := by
  simp [rolesOf, inForce, Role.mem_all, and_assoc]

/-- An operation is permitted just if a grant in force entitles the principal. -/
theorem permits_iff :
    gate.permits p op project = true ↔ ∃ g ∈ gate.inForce, g.Entitles p project := by
  unfold permits
  rw [List.any_eq_true]
  constructor
  · rintro ⟨r, hr, hop⟩
    obtain ⟨g, hg, hproject, hcovers, rfl⟩ := mem_rolesOf_iff.1 hr
    exact ⟨g, hg, hproject, GrantSubject.covers_iff.1 hcovers,
      Role.satisfies_requiredRole_iff.1 hop⟩
  · rintro ⟨g, hg, h⟩
    refine ⟨g.role, mem_rolesOf_iff.2 ⟨g, hg, h.project_eq, ?_, rfl⟩, ?_⟩
    · exact GrantSubject.covers_iff.2 h.subject
    · exact Role.satisfies_requiredRole_iff.2 h.role

/-! ## Calls -/

theorem inForce_grant (gate : Gate) (g : RoleGrant) :
    (gate.grant g).inForce = insert g gate.inForce :=
  Set.ext fun _ => List.mem_insert_iff

theorem inForce_revoke (gate : Gate) (g : RoleGrant) :
    (gate.revoke g).2.inForce = gate.inForce \ {g} := by
  ext g'
  simp [revoke, inForce]

theorem revoke_fst_iff : (gate.revoke g).1 = true ↔ g ∈ gate.inForce := List.contains_iff_mem

/-- To grant what is in force changes nothing. -/
theorem grant_of_mem (h : g ∈ gate.inForce) : gate.grant g = gate :=
  congrArg Gate.mk (List.insert_of_mem h)

theorem inForce_ofGrants (gs : List RoleGrant) : (ofGrants gs).inForce = {g | g ∈ gs} := by
  have hfold (gate : Gate) : (gs.foldl grant gate).inForce = gate.inForce ∪ {g | g ∈ gs} := by
    induction gs generalizing gate with
    | nil => simp
    | cons g gs ih =>
      rw [List.foldl_cons, ih, inForce_grant]
      ext g'
      simp only [Set.mem_union, Set.mem_insert_iff, Set.mem_ofPred_eq, List.mem_cons]
      tauto
  rw [ofGrants, hfold]
  simp [inForce]

theorem inForce_perform (gate : Gate) (c : GateCall) :
    (gate.perform c).2.inForce = c.effect gate.inForce := by
  cases c with
  | grant | grantUser | grantGroup => exact inForce_grant gate _
  | revoke g => exact inForce_revoke gate g

/-- The gate after calls in turn. -/
def after (gate : Gate) (cs : List GateCall) : Gate :=
  cs.foldl (fun gate c => (gate.perform c).2) gate

theorem inForce_after (gate : Gate) (cs : List GateCall) :
    (gate.after cs).inForce = cs.foldl (fun s c => c.effect s) gate.inForce := by
  induction cs generalizing gate with
  | nil => rfl
  | cons c cs ih =>
    rw [List.foldl_cons, ← inForce_perform]
    exact ih _

/-- A grant that no call is about stays in force or out of it. -/
theorem mem_inForce_after_of_forall_ne {cs : List GateCall} (h : ∀ c ∈ cs, c.about ≠ g) :
    g ∈ (gate.after cs).inForce ↔ g ∈ gate.inForce := by
  induction cs generalizing gate with
  | nil => rfl
  | cons c cs ih =>
    obtain ⟨hc, hcs⟩ := List.forall_mem_cons.1 h
    have hstep : g ∈ (gate.perform c).2.inForce ↔ g ∈ gate.inForce := by
      rw [inForce_perform, GateCall.effect]
      split_ifs <;> simp [hc.symm]
    exact (ih hcs).trans hstep

/-- A decision stays as it is while no call is about a grant that entitles the principal. -/
theorem permits_after_of_not_entitles {cs : List GateCall}
    (h : ∀ c ∈ cs, ¬c.about.Entitles p project) :
    (gate.after cs).permits p op project = gate.permits p op project := by
  rw [Bool.eq_iff_iff, permits_iff, permits_iff]
  refine exists_congr fun g => and_congr_left fun hg => mem_inForce_after_of_forall_ne ?_
  rintro c hc rfl
  exact h c hc hg

/-- What a grant in force permits stays permitted while no call is about that grant. -/
theorem permits_after_of_entitles {cs : List GateCall} (hin : g ∈ gate.inForce)
    (hg : g.Entitles p project) (h : ∀ c ∈ cs, c.about ≠ g) :
    (gate.after cs).permits p op project = true :=
  permits_iff.2 ⟨g, (mem_inForce_after_of_forall_ne h).2 hin, hg⟩

end Gate

end Triage
