import Triage.Codec.Service
import Triage.Permission

/-!
# Audit log

One event for each mutation and each call that rebuilds index entries, and the sinks that events
go to.  In a file an event is one line of JSON.
-/

namespace Triage

/-- A call that leaves an event. -/
inductive AuditedCall
  | mutation (op : Operation)
  | reindex
  | indexAll
deriving DecidableEq, Repr

namespace AuditedCall

/-- The kind of event that the call leaves. -/
def event : AuditedCall → String
  | .mutation _ => "issue_mutation"
  | .reindex | .indexAll => "reindex"

/-- The name of the call. -/
def name : AuditedCall → String
  | .mutation op => op.auditName
  | .reindex => "reindex"
  | .indexAll => "index_all"

end AuditedCall

/-- What became of an audited call. -/
inductive AuditOutcome
  | applied
  | denied
  | rejected
  | failed
  | indexDiverged
deriving DecidableEq, Repr

instance : Label AuditOutcome where
  noun := "outcome"
  all := [.applied, .denied, .rejected, .failed, .indexDiverged]
  label
    | .applied => "applied"
    | .denied => "denied"
    | .rejected => "rejected"
    | .failed => "failed"
    | .indexDiverged => "index_diverged"

/-- The outcome of a mutation that failed with an error of the kind. -/
def AuditOutcome.ofMutationError : ErrorKind → AuditOutcome
  | .forbidden => .denied
  | .notFound | .invalidArgument | .illegalTransition => .rejected
  | .indexUnavailable => .indexDiverged
  | .storeUnavailable | .catalogUnavailable => .failed

/-- The outcome of a rebuilding call that failed with an error of the kind. -/
def AuditOutcome.ofReindexError : ErrorKind → AuditOutcome
  | .notFound => .rejected
  | _ => .failed

/-- An event. -/
structure AuditEvent where
  call : AuditedCall
  issueKey : Option IssueKey := none
  principal : Option Login := none
  projectKey : Option ProjectKey := none
  outcome : AuditOutcome
  errorKind : Option ErrorKind := none
deriving DecidableEq

namespace AuditEvent

/-- The event as an object, stamped with milliseconds since the epoch. -/
def json (e : AuditEvent) (stamp : Nat) : Json :=
  .record [
    ("event", toJson e.call.event),
    ("timestamp_ms", .nat stamp),
    ("operation", toJson e.call.name),
    ("issue_key", toJson e.issueKey),
    ("principal", toJson e.principal),
    ("project_key", toJson e.projectKey),
    ("outcome", .ofLabel e.outcome),
    ("error_kind", toJson e.errorKind)]

/-- The line of the event in a file, without its end. -/
def line (e : AuditEvent) (stamp : Nat) : String := (e.json stamp).print

end AuditEvent

/-- Where events go: kept in order, appended to a file, shown to the operator, or dropped. -/
inductive AuditSink
  | kept (events : List AuditEvent)
  | file (content : ByteArray)
  | console
  | dropped

instance : Inhabited AuditSink := ⟨.kept []⟩

/-- The sink after an event. -/
def AuditSink.record (s : AuditSink) (stamp : Nat) (e : AuditEvent) : AuditSink :=
  match s with
  | .kept events => .kept (events ++ [e])
  | .file content => .file (content ++ (e.line stamp ++ "\n").toUTF8)
  | .console => .console
  | .dropped => .dropped

end Triage
