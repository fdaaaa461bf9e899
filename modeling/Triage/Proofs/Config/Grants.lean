import Triage.Config.Validation
import Triage.Proofs.Gate
import Triage.Proofs.Result

/-!
# Grants of a configuration

A configuration that is not refused names exactly one subject in each entry of its grants.  So each
entry gives a grant for each of its roles, the gate starts with these in force, and from then on a
decision is what the declared grants and the calls of the gate make it.
-/

namespace Triage

/-- Whether the entry names the subject, white space at its ends left aside, and no other. -/
inductive GrantConfig.Names (e : GrantConfig) : GrantSubject → Prop
  | user {login : String} (huser : e.user = some login) (hgroup : e.group = none) :
    Names e (.user ⟨Text.trim login⟩)
  | group {name : String} (huser : e.user = none) (hgroup : e.group = some name) :
    Names e (.group (Text.trim name))

/-- Whether the entry declares the grant: one of its roles, for its subject in its project. -/
structure GrantConfig.Declares (e : GrantConfig) (g : RoleGrant) : Prop where
  project : g.project = ⟨Text.trim e.project⟩
  subject : e.Names g.subject
  role : g.role ∈ e.roles

/-- The grants that the entries declare. -/
def Config.declared (c : Config) : Set RoleGrant := {g | ∃ e ∈ c.grants, e.Declares g}

namespace GrantConfig

variable {e : GrantConfig} {s : GrantSubject} {g : RoleGrant}

theorem subject?_eq_some : e.subject? = some s ↔ e.Names s := by
  obtain ⟨project, user, group, roles⟩ := e
  constructor
  · intro h
    unfold subject? at h
    split at h
    case h_1 huser hgroup =>
      cases h
      exact .user huser hgroup
    case h_2 huser hgroup =>
      cases h
      exact .group huser hgroup
    case h_3 => cases h
  · rintro (⟨huser, hgroup⟩ | ⟨huser, hgroup⟩) <;> simp_all [subject?]

theorem roleGrants_of_names (h : e.Names s) :
    e.roleGrants = e.roles.map fun role => ⟨⟨Text.trim e.project⟩, s, role⟩ := by
  rw [roleGrants, subject?_eq_some.2 h]

theorem mem_roleGrants_iff : g ∈ e.roleGrants ↔ e.Declares g := by
  constructor
  · intro hg
    rcases hs : e.subject? with _ | s
    · simp [roleGrants, hs] at hg
    · have hnames := subject?_eq_some.1 hs
      rw [roleGrants_of_names hnames] at hg
      obtain ⟨role, hrole, rfl⟩ := List.mem_map.1 hg
      exact ⟨rfl, hnames, hrole⟩
  · rintro ⟨hproject, hsubject, hrole⟩
    rw [roleGrants_of_names hsubject, List.mem_map]
    exact ⟨g.role, hrole, by rw [← hproject]⟩

end GrantConfig

namespace Config

variable {c : Config}

theorem inForce_gate (c : Config) : c.gate.inForce = c.declared := by
  ext g
  simp only [gate, Gate.inForce_ofGrants, roleGrants, declared, Set.mem_ofPred_eq, List.mem_flatMap,
    GrantConfig.mem_roleGrants_iff]

theorem names_of_checkGrant {field : String} {e : GrantConfig}
    (h : checkGrant field e = .ok ()) : ∃ s, e.Names s := by
  obtain ⟨-, -, h⟩ := bind_eq_ok.1 h
  rcases huser : e.user with _ | login <;> rcases hgroup : e.group with _ | name <;>
    simp only [huser, hgroup] at h
  case none.none => cases h
  case none.some => exact ⟨_, .group huser hgroup⟩
  case some.none => exact ⟨_, .user huser hgroup⟩
  case some.some => cases h

theorem names_of_checkGrants {n : Nat} {es : List GrantConfig} (h : checkGrants n es = .ok ()) :
    ∀ e ∈ es, ∃ s, e.Names s := by
  induction es generalizing n with
  | nil => nofun
  | cons e es ih =>
    obtain ⟨_, he, hes⟩ := bind_eq_ok.1 h
    exact List.forall_mem_cons.2 ⟨names_of_checkGrant he, ih hes⟩

theorem names_of_validate (h : c.validate = .ok ()) : ∀ e ∈ c.grants, ∃ s, e.Names s := by
  obtain ⟨-, -, h⟩ := bind_eq_ok.1 h
  obtain ⟨-, -, h⟩ := bind_eq_ok.1 h
  obtain ⟨-, -, h⟩ := bind_eq_ok.1 h
  by_cases hmany : maxGrants < c.grants.length
  · rw [if_pos hmany] at h
    cases h
  · rw [if_neg hmany] at h
    exact names_of_checkGrants h

/-- For a configuration that is not refused and any calls of the gate built from it: each entry
gives one grant for each of its roles, the grants in force are those declared with each call's put
in or taken out in turn, and an operation is permitted just if one of them entitles the principal.
To grant twice is to grant once, to revoke takes the grant out and tells whether it was in force,
and further calls change no decision that rests on grants which they are not about. -/
theorem decisions_follow_grants (hc : c.validate = .ok ()) (cs : List GateCall) :
    (∀ e ∈ c.grants, ∃ s, e.Names s ∧
      e.roleGrants = e.roles.map fun role => ⟨⟨Text.trim e.project⟩, s, role⟩) ∧
    (c.gate.after cs).inForce = cs.foldl (fun s call => call.effect s) c.declared ∧
    (∀ p op project, (c.gate.after cs).permits p op project = true ↔
      ∃ g ∈ cs.foldl (fun s call => call.effect s) c.declared, g.Entitles p project) ∧
    (∀ g, ((c.gate.after cs).grant g).grant g = (c.gate.after cs).grant g ∧
      g ∉ ((c.gate.after cs).revoke g).2.inForce ∧
      (((c.gate.after cs).revoke g).1 = true ↔
        g ∈ cs.foldl (fun s call => call.effect s) c.declared)) ∧
    ∀ ds p op project,
      ((∀ d ∈ ds, ¬d.about.Entitles p project) →
        ((c.gate.after cs).after ds).permits p op project =
          (c.gate.after cs).permits p op project) ∧
      ∀ g ∈ cs.foldl (fun s call => call.effect s) c.declared, g.Entitles p project →
        (∀ d ∈ ds, d.about ≠ g) → ((c.gate.after cs).after ds).permits p op project = true := by
  have hforce : (c.gate.after cs).inForce =
      cs.foldl (fun s call => call.effect s) c.declared := by
    rw [Gate.inForce_after, inForce_gate]
  rw [← hforce]
  refine ⟨fun e he => ?_, rfl, fun p op project => Gate.permits_iff, fun g => ⟨?_, ?_, ?_⟩,
    fun ds p op project => ⟨fun h => ?_, fun g hg hentitles h => ?_⟩⟩
  · obtain ⟨s, hs⟩ := names_of_validate hc e he
    exact ⟨s, hs, GrantConfig.roleGrants_of_names hs⟩
  · exact Gate.grant_of_mem (by simp [Gate.inForce_grant])
  · simp [Gate.inForce_revoke]
  · exact Gate.revoke_fst_iff
  · exact Gate.permits_after_of_not_entitles h
  · exact Gate.permits_after_of_entitles hg hentitles h

/-- A configuration that grants to a user and to a group, with blanks around its names. -/
def sample : Config :=
  { grants := [⟨" sample ", some " gandalf ", none, [.codeViewer, .issueAdmin]⟩,
      ⟨"sample", none, some " wizards ", [.user]⟩] }

/-- Once the user's grant is revoked the group's is what entitles its members, and no later call
about the user changes that. -/
theorem decisions_follow_grants_sample :
    sample.validate = .ok () ∧
    (∃ g ∈ (GateCall.revoke ⟨⟨"sample"⟩, .user ⟨"gandalf"⟩, .issueAdmin⟩).effect sample.declared,
      g.Entitles ⟨⟨"radagast"⟩, ["wizards"]⟩ ⟨"sample"⟩) ∧
    (∀ g ∈ (GateCall.revoke ⟨⟨"sample"⟩, .user ⟨"gandalf"⟩, .issueAdmin⟩).effect sample.declared,
      ¬g.Entitles ⟨⟨"gandalf"⟩, []⟩ ⟨"sample"⟩) ∧
    ((sample.gate.after [.revoke ⟨⟨"sample"⟩, .user ⟨"gandalf"⟩, .issueAdmin⟩]).after
        [.grantUser ⟨"sample"⟩ ⟨"gandalf"⟩ .admin]).permits
      ⟨⟨"radagast"⟩, ["wizards"]⟩ .assign ⟨"sample"⟩ = true := by
  have hvalid : sample.validate = .ok () := by decide +kernel
  obtain ⟨-, -, hpermits, -, hlater⟩ := decisions_follow_grants hvalid
    [.revoke ⟨⟨"sample"⟩, .user ⟨"gandalf"⟩, .issueAdmin⟩]
  have hmember := (hpermits ⟨⟨"radagast"⟩, ["wizards"]⟩ .assign ⟨"sample"⟩).1 (by decide +kernel)
  have huser := mt (hpermits ⟨⟨"gandalf"⟩, []⟩ .assign ⟨"sample"⟩).2 (by decide +kernel)
  refine ⟨hvalid, hmember, fun g hg hentitles => huser ⟨g, hg, hentitles⟩, ?_⟩
  obtain ⟨g, hg, hentitles⟩ := hmember
  refine (hlater _ _ _ _).2 g hg hentitles fun d hd hne => ?_
  obtain rfl := List.mem_singleton.1 hd
  subst hne
  exact absurd hentitles.subject (by simp [GateCall.about])

end Config

end Triage
