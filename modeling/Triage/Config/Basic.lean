import Triage.Gate
import Triage.Service.Limits
import Triage.Store.Settings
import Triage.Text.Blank

/-!
# Configuration

What an operator sets: the store, the audit log, the limits of the service and the roles granted
in projects.
-/

namespace Triage

/-- The kind of store. -/
inductive StoreType
  | memory
  | database
deriving DecidableEq, Repr, Inhabited

instance : Label StoreType where
  noun := "store type"
  all := [.memory, .database]
  label
    | .memory => "memory"
    | .database => "sqlite"

/-- Where audit events go. -/
inductive SinkType
  | console
  | file
  | none
deriving DecidableEq, Repr, Inhabited

instance : Label SinkType where
  noun := "audit sink"
  all := [.console, .file, .none]
  label
    | .console => "stderr"
    | .file => "file"
    | .none => "none"

/-- The settings of the store. -/
structure StoreConfig where
  type : StoreType := .memory
  path : Option String := none
  busyTimeoutMs : Nat := defaultBusyTimeoutMs
  journalMode : JournalMode := .wal
  syncMode : SyncMode := .full
deriving DecidableEq, Repr, Inhabited

/-- The settings of the audit log. -/
structure AuditConfig where
  sink : SinkType := .console
  path : Option String := none
deriving DecidableEq, Repr, Inhabited

/-- Roles for a user or a group in a project; a proper entry names one of the two. -/
structure GrantConfig where
  project : String
  user : Option String := none
  group : Option String := none
  roles : List Role
deriving DecidableEq

/-- A configuration. -/
structure Config where
  store : StoreConfig := {}
  audit : AuditConfig := {}
  limits : ServiceLimits := {}
  grants : List GrantConfig := []
deriving DecidableEq, Inhabited

namespace GrantConfig

/-- Who the roles are for, if the entry names exactly one. -/
def subject? (g : GrantConfig) : Option GrantSubject :=
  match g.user, g.group with
  | some user, none => some (.user ⟨Text.trim user⟩)
  | none, some group => some (.group (Text.trim group))
  | _, _ => none

/-- The grants of the entry, one for each role. -/
def roleGrants (g : GrantConfig) : List RoleGrant :=
  match g.subject? with
  | some subject => g.roles.map fun role => ⟨⟨Text.trim g.project⟩, subject, role⟩
  | none => []

end GrantConfig

namespace Config

/-- All grants of the configuration, in order. -/
def roleGrants (c : Config) : List RoleGrant := c.grants.flatMap GrantConfig.roleGrants

/-- The gate with the grants of the configuration in force. -/
def gate (c : Config) : Gate := .ofGrants c.roleGrants

/-- The settings of the database, if that is the store and it has a path. -/
def databaseSettings? (c : Config) : Option DatabaseSettings :=
  match c.store.type with
  | .memory => none
  | .database => c.store.path.map fun path =>
    ⟨path, c.store.busyTimeoutMs, c.store.journalMode, c.store.syncMode⟩

end Config

end Triage
