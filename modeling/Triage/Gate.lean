import Triage.Permission

/-!
# Permission gate

Roles granted to users and groups, project by project, and the decisions that rest on them.
-/

namespace Triage

/-- Who a grant is for. -/
inductive GrantSubject
  | user (login : Login)
  | group (name : String)
deriving DecidableEq

/-- Whether the principal is the subject or a member of it. -/
def GrantSubject.covers : GrantSubject → Principal → Bool
  | .user login, p => login = p.login
  | .group name, p => p.groups.contains name

/-- A role given to a subject in a project. -/
structure RoleGrant where
  project : ProjectKey
  subject : GrantSubject
  role : Role
deriving DecidableEq

/-- The grants in force, each listed once. -/
structure Gate where
  grants : List RoleGrant := []
deriving DecidableEq, Inhabited

namespace Gate

/-- The gate with `g` in force. -/
def grant (gate : Gate) (g : RoleGrant) : Gate := ⟨gate.grants.insert g⟩

/-- Whether `g` was in force, and the gate without it. -/
def revoke (gate : Gate) (g : RoleGrant) : Bool × Gate :=
  (gate.grants.contains g, ⟨gate.grants.filter (· ≠ g)⟩)

/-- The gate with a role of a user in force. -/
def grantUser (gate : Gate) (project : ProjectKey) (login : Login) (role : Role) : Gate :=
  gate.grant ⟨project, .user login, role⟩

/-- The gate with a role of a group in force. -/
def grantGroup (gate : Gate) (project : ProjectKey) (name : String) (role : Role) : Gate :=
  gate.grant ⟨project, .group name, role⟩

/-- The gate with the grants of a list in force. -/
def ofGrants (gs : List RoleGrant) : Gate := gs.foldl grant {}

/-- The roles of the principal in the project. -/
def rolesOf (gate : Gate) (p : Principal) (project : ProjectKey) : List Role :=
  (Label.all (α := Role)).filter fun r =>
    gate.grants.any fun g => g.project = project && g.subject.covers p && g.role = r

/-- Whether the principal may perform the operation in the project. -/
def permits (gate : Gate) (p : Principal) (op : Operation) (project : ProjectKey) : Bool :=
  (gate.rolesOf p project).any fun r => r.satisfies op.requiredRole

end Gate

/-- A call that changes which grants are in force. -/
inductive GateCall
  | grant (g : RoleGrant)
  | grantUser (project : ProjectKey) (login : Login) (role : Role)
  | grantGroup (project : ProjectKey) (name : String) (role : Role)
  | revoke (g : RoleGrant)
deriving DecidableEq

/-- The answer to a call, and the gate after it. -/
def Gate.perform (gate : Gate) : GateCall → Bool × Gate
  | .grant g => (true, gate.grant g)
  | .grantUser project login role => (true, gate.grantUser project login role)
  | .grantGroup project name role => (true, gate.grantGroup project name role)
  | .revoke g => gate.revoke g

end Triage
