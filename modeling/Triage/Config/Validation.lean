import Triage.Config.Basic
import Triage.Files.Path
import Triage.Store.Error

/-!
# Validating configurations

The first reason why a configuration is refused.  Settings are checked in the order store, audit
log, limits, grants.
-/

namespace Triage

/-- Why a configuration cannot be used: its file cannot be read, its text has no meaning, it sets
something it must not, or its store cannot be opened. -/
inductive ConfigError
  | io (detail : String)
  | parse (detail : String)
  | invalid (detail : String)
  | store (e : DatabaseError)
deriving DecidableEq, Repr

/-- The text of the error. -/
def ConfigError.message : ConfigError → String
  | .io d => "config io error: " ++ d
  | .parse d => "config parse error: " ++ d
  | .invalid d => "invalid config: " ++ d
  | .store e => "config io error: " ++ e.message

/-- The most grant entries that a configuration may have. -/
def maxGrants : Nat := 1024

/-- The most bytes that a name in a grant may have. -/
def maxGrantNameBytes : Nat := 256

namespace Config

/-- Refuses for the given reason. -/
def refuse {α : Type} (reason : String) : Except ConfigError α := .error (.invalid reason)

/-- Checks the path of a setting, white space at its ends left aside. -/
def checkPath (field text : String) : Except ConfigError Unit :=
  let p : Path := ⟨Text.trim text⟩
  if p.text.isEmpty then refuse (field ++ " must be non-empty")
  else if p.isOverlong then refuse (field ++ " exceeds max length")
  else if p.hasOverlongName then refuse (field ++ " path component too long")
  else .ok ()

/-- Checks a name in a grant, white space at its ends left aside. -/
def checkName (field text : String) : Except ConfigError Unit :=
  let name := Text.trim text
  if name.isEmpty then refuse (field ++ " must be non-empty")
  else if maxGrantNameBytes < name.utf8ByteSize then refuse (field ++ " exceeds max length")
  else .ok ()

/-- Checks the settings of the store. -/
def checkStore (s : StoreConfig) : Except ConfigError Unit :=
  match s.type, s.path with
  | .memory, some _ => refuse "memory store must not set path"
  | .memory, none => .ok ()
  | .database, none => refuse "sqlite store requires path"
  | .database, some path => do
    checkPath "store.path" path
    if s.busyTimeoutMs = 0 then refuse "store busy_timeout_ms must be greater than zero"

/-- Checks the settings of the audit log. -/
def checkAudit (a : AuditConfig) : Except ConfigError Unit :=
  match a.sink, a.path with
  | .file, none => refuse "file audit sink requires path"
  | .file, some path => checkPath "audit.path" path
  | _, some _ => refuse "audit.path is only valid for the file sink"
  | _, none => .ok ()

/-- Checks an entry of the grants. -/
def checkGrant (field : String) (g : GrantConfig) : Except ConfigError Unit := do
  checkName (field ++ ".project") g.project
  match g.user, g.group with
  | some user, none => checkName (field ++ ".user") user
  | none, some group => checkName (field ++ ".group") group
  | _, _ => refuse (field ++ " must set exactly one of user or group")
  if g.roles.isEmpty then refuse (field ++ ".roles must be non-empty")

/-- Checks the entries of the grants, which are numbered from `n`. -/
def checkGrants (n : Nat) : List GrantConfig → Except ConfigError Unit
  | [] => .ok ()
  | g :: gs => do
    checkGrant ("grants[" ++ toString n ++ "]") g
    checkGrants (n + 1) gs

/-- Checks the configuration. -/
def validate (c : Config) : Except ConfigError Unit := do
  checkStore c.store
  checkAudit c.audit
  c.limits.validate.mapError fun e => .invalid ("search/issues: " ++ e.message)
  if maxGrants < c.grants.length then refuse s!"too many grants (max {maxGrants})"
  checkGrants 0 c.grants

end Config

end Triage
