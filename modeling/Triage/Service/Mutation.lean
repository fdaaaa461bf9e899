import Triage.Service.Script

/-!
# Mutations

A mutation holds the lock of its issue while it loads the row, finds the project, asks the gate,
changes the row, stores it with its differences, indexes it and reads the document back.  It leaves
one event.
-/

namespace Triage

namespace Service

/-! ## Shared steps -/

/-- Loads a stored issue. -/
def loadIssue (key : IssueKey) : Attempt Issue := do
  .found (← .store (.selectByKey key)) (.unknownIssue key)

/-- Finds the key of a project. -/
def findProject (uuid : ProjectUuid) : Attempt ProjectKey := do
  let project ← .found (← .catalog (.project uuid)) (.unknownProject uuid)
  return project.projectKey

/-- Indexes a stored row and reads its document back. -/
def indexRow (row : Issue) : Attempt IssueDoc := do
  .index (.put row.doc)
  .found (← .index (.get row.key)) (.documentMissing row.key)

/-- Does `body` while holding the lock of `key`; ends in `refused` if the lock is poisoned. -/
def locked {α : Type} (key : IssueKey) (refused : α) (body : Script α) : Script α := do
  if ← .single (.enter key) then
    let a ← body
    .single (.leave key)
    return a
  else return refused

/-- How far a mutation came: the project, if it was found, and the result. -/
structure Mutated where
  project : Option ProjectKey
  result : Except ServiceError IssueDoc

/-- Finds a thing and its project, then does the rest. -/
def inProject {α : Type} (find : Attempt (α × ProjectKey))
    (rest : α → ProjectKey → Attempt IssueDoc) : Script Mutated := do
  match ← find.run with
  | .error e => return ⟨none, .error e⟩
  | .ok (a, project) => return ⟨some project, ← (rest a project).run⟩

/-- The event of a mutation. -/
def mutationEvent (op : Operation) (key : Option IssueKey) (principal : Principal) (m : Mutated) :
    AuditEvent where
  call := .mutation op
  issueKey := key
  principal := some principal.login
  projectKey := m.project
  outcome := match m.result with
    | .ok _ => .applied
    | .error e => .ofMutationError e.kind
  errorKind := match m.result with
    | .ok _ => none
    | .error e => some e.kind

/-! ## Changes of an issue -/

/-- A change that a caller asks for.  An empty login or plan stands for none. -/
inductive Mutation
  | transition (t : Transition)
  | assign (login : Option String)
  | plan (key : Option String)
  | setSeverity (s : Severity)
  | setTags (entries : List (Option String))
deriving DecidableEq

namespace Mutation

/-- The operation that the change is. -/
def operation : Mutation → Operation
  | .transition _ => .transition
  | .assign _ => .assign
  | .plan _ => .plan
  | .setSeverity _ => .setSeverity
  | .setTags _ => .setTags

/-- The identifier that a text is, unless it is missing or empty. -/
def identifier? {k : IdKind} (text : Option String) : Option (Id k) :=
  (text.filter (· ≠ "")).map Id.mk

/-- The row after a transition. -/
def applyTransition (i : Issue) (t : Transition) : Except ServiceError Issue :=
  match Workflow.apply ⟨i.status, i.resolution⟩ t with
  | .ok s => .ok { i with status := s.status, resolution := s.resolution }
  | .error e => .error (.illegalTransition e)

/-- The row with another assignee, who must be a known user. -/
def applyAssignee (i : Issue) (assignee : Option Login) : Attempt Issue := do
  if let some login := assignee then
    let _ ← Attempt.found (← .catalog (.user login)) (.unknownUser login)
  return { i with assignee := assignee }

/-- The row with another action plan, which must be a known one. -/
def applyPlan (i : Issue) (plan : Option ActionPlanKey) : Attempt Issue := do
  if let some key := plan then
    let _ ← Attempt.found (← .catalog (.plan key)) (.unknownActionPlan key)
  return { i with actionPlanKey := plan }

/-- The row after the change. -/
def apply (limits : ServiceLimits) (i : Issue) : Mutation → Attempt Issue
  | .transition t => .ofExcept (applyTransition i t)
  | .assign login => applyAssignee i (identifier? login)
  | .plan key => applyPlan i (identifier? key)
  | .setSeverity s => return { i with severity := s }
  | .setTags entries =>
    .ofExcept (match Tags.normalize entries limits.maxTagsPerIssue with
      | .ok tags => .ok { i with tags := tags }
      | .error e => .error (.tags e))

end Mutation

/-- Changes a row, for a caller who must be permitted to. -/
def changeRow (limits : ServiceLimits) (principal : Principal) (m : Mutation) (current : Issue)
    (project : ProjectKey) : Attempt IssueDoc := do
  .authorize principal m.operation project
  let changed ← m.apply limits current
  let stored ← .store (.updateWithChange changed principal.login (current.diffs changed))
  indexRow stored

/-- Finds an issue and its project, and changes it; the lock of the issue is held. -/
def mutateLocked (limits : ServiceLimits) (principal : Principal) (key : IssueKey) (m : Mutation) :
    Script Mutated :=
  inProject
    (do
      let current ← loadIssue key
      return (current, ← findProject current.projectUuid))
    (changeRow limits principal m)

/-- Changes an issue and answers its document. -/
def mutate (limits : ServiceLimits) (principal : Principal) (key : IssueKey) (m : Mutation) :
    Script (Except ServiceError IssueDoc) := do
  let mutated ← locked key ⟨none, .error .lockPoisoned⟩ (mutateLocked limits principal key m)
  .single (.record (mutationEvent m.operation (some key) principal mutated))
  return mutated.result

end Service

end Triage
