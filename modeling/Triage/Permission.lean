import Triage.Id
import Triage.Label

/-!
# Permissions

Who acts, what they may be, and what each operation asks of them.
-/

namespace Triage

/-- Someone who calls the service. -/
structure Principal where
  login : Login
  groups : List String := []
deriving DecidableEq

/-- A part that a user or group can play in a project. -/
inductive Role
  | user
  | codeViewer
  | issueAdmin
  | admin
deriving DecidableEq, Repr

instance : Label Role where
  noun := "role"
  all := [.user, .codeViewer, .issueAdmin, .admin]
  label
    | .user => "user"
    | .codeViewer => "codeviewer"
    | .issueAdmin => "issueadmin"
    | .admin => "admin"
  sameSpelling := Label.sameLetters

/-- Whether someone with the first role may do what asks for the second. -/
def Role.satisfies : Role → Role → Bool
  | .user, .user => true
  | .codeViewer, .codeViewer => true
  | .issueAdmin, .issueAdmin => true
  | .issueAdmin, .user => true
  | .admin, _ => true
  | _, _ => false

/-- An operation that changes an issue. -/
inductive Operation
  | transition
  | assign
  | plan
  | setSeverity
  | setTags
  | createManualIssue
deriving DecidableEq, Repr

instance : Label Operation where
  noun := "operation"
  all := [.transition, .assign, .plan, .setSeverity, .setTags, .createManualIssue]
  label
    | .transition => "transition"
    | .assign => "assign"
    | .plan => "plan"
    | .setSeverity => "set_severity"
    | .setTags => "set_tags"
    | .createManualIssue => "create_manual_issue"

namespace Operation

/-- The name of the operation in the audit log. -/
def auditName : Operation → String
  | .transition => "do_transition"
  | op => label op

/-- The role that the operation asks for in the issue's project. -/
def requiredRole : Operation → Role
  | _ => .user

end Operation

end Triage
