import Triage.Audit
import Triage.Config.Validation
import Triage.Store.Basic
import Triage.Store.Location

/-!
# Building from configurations

The store and the audit log that a configuration asks for.  It need not have been validated.
-/

namespace Triage.Config

/-- Opens the store. -/
def openStore (c : Config) (f : Files) : Outcome (Except ConfigError (Store × Files)) :=
  match c.store.type, c.databaseSettings? with
  | .memory, _ => .returned (.ok (.memory {}, f))
  | .database, none => .returned (refuse "sqlite store requires path")
  | .database, some settings =>
    (Database.openAt f settings).map fun
      | .ok (db, f) => .ok (.database db, f)
      | .error e => .error (.store e)

/-- Opens the audit log; events are appended to what its file holds. -/
def openSink (c : Config) (f : Files) : Except ConfigError AuditSink :=
  match c.audit.sink, c.audit.path with
  | .console, _ => .ok .console
  | .none, _ => .ok .dropped
  | .file, none => refuse "file audit sink requires path"
  | .file, some path =>
    match f.writable? ⟨path⟩ with
    | none => .error (.io "audit file cannot be opened")
    | some place =>
      match f.get? place with
      | some (.file content) => .ok (.file content)
      | _ => .ok (.file .empty)

end Triage.Config
