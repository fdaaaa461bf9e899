import Triage.KeyMap

/-!
# Catalog

Rules, users, action plans and components, with the lookups that issues need.  A project is a
component that is its own project.
-/

namespace Triage

/-- A rule that issues are raised on; only a manual one takes issues created by hand. -/
structure Rule where
  key : RuleKey
  name : String
  manual : Bool
deriving DecidableEq

/-- A known user. -/
structure User where
  login : Login
  name : String
deriving DecidableEq

/-- A plan that issues can be assigned to. -/
structure ActionPlan where
  key : ActionPlanKey
  projectUuid : ProjectUuid
deriving DecidableEq

/-- A project or a part of one. -/
structure Component where
  key : ComponentKey
  uuid : ComponentUuid
  projectUuid : ProjectUuid
deriving DecidableEq

namespace Component

/-- Whether the component is the root of its project. -/
def isProject (c : Component) : Bool := c.uuid.text == c.projectUuid.text

/-- The key of the project whose root the component is. -/
def projectKey (c : Component) : ProjectKey := ⟨c.key.text⟩

/-- The key as a project, for a root component only. -/
def asProjectKey? (c : Component) : Option ProjectKey :=
  if c.isProject then some c.projectKey else none

end Component

/-- Registered rules, users, action plans and components.  `uuidOwners` tells the key that each
component uuid was last registered with. -/
structure Catalog where
  rules : KeyMap .rule Rule := ∅
  users : KeyMap .login User := ∅
  actionPlans : KeyMap .actionPlan ActionPlan := ∅
  components : KeyMap .component Component := ∅
  uuidOwners : KeyMap .componentUuid ComponentKey := ∅
deriving Inhabited

namespace Catalog

/-- Registers a rule, in place of one with the same key. -/
def addRule (c : Catalog) (r : Rule) : Catalog := { c with rules := c.rules.insert r.key r }

/-- Registers a user, in place of one with the same login. -/
def addUser (c : Catalog) (u : User) : Catalog := { c with users := c.users.insert u.login u }

/-- Registers an action plan, in place of one with the same key. -/
def addActionPlan (c : Catalog) (p : ActionPlan) : Catalog :=
  { c with actionPlans := c.actionPlans.insert p.key p }

/-- Registers a component, in place of one with the same key. -/
def addComponent (c : Catalog) (x : Component) : Catalog :=
  { c with
    uuidOwners := c.uuidOwners.insert x.uuid x.key
    components := c.components.insert x.key x }

/-- The component registered under `key`. -/
def component? (c : Catalog) (key : ComponentKey) : Option Component := c.components.get? key

/-- The root component of the project `uuid`. -/
def project? (c : Catalog) (uuid : ProjectUuid) : Option Component :=
  ((c.uuidOwners.get? ⟨uuid.text⟩).bind c.components.get?).filter Component.isProject

end Catalog

end Triage
