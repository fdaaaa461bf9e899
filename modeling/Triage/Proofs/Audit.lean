import Triage.Audit
import Triage.Proofs.Codec.Exact
import Triage.Proofs.Json.Printed

/-!
# The log of events

In a file every event is a line of its own, whatever texts are in it: the log is cut into the lines
of its events again, and each line is read as its event.
-/

namespace Triage

/-! ## Lines -/

namespace Text

/-- The text of the lines, each with its end. -/
def joinLines (lines : List String) : String :=
  String.ofList (lines.flatMap fun l => l.toList ++ ['\n'])

/-- The lines of a text that have an end. -/
def cutLines (s : String) : List String :=
  (s.toList.splitOn '\n').dropLast.map String.ofList

variable {lines : List String}

theorem joinLines_append (lines lines' : List String) :
    joinLines (lines ++ lines') = joinLines lines ++ joinLines lines' := by
  simp [joinLines]

theorem joinLines_singleton (l : String) : joinLines [l] = l ++ "\n" := by
  rw [← String.toList_inj, joinLines, String.toList_ofList, List.flatMap_singleton,
    String.toList_append]
  rfl

theorem cutLines_joinLines (h : ∀ l ∈ lines, '\n' ∉ l.toList) :
    cutLines (joinLines lines) = lines := by
  unfold cutLines joinLines
  rw [String.toList_ofList]
  induction lines with
  | nil => rfl
  | cons l lines ih =>
    obtain ⟨hl, hlines⟩ := List.forall_mem_cons.1 h
    rw [List.flatMap_cons, List.append_assoc, List.singleton_append,
      List.splitOn_append_cons_self_of_not_mem hl,
      List.dropLast_cons_of_ne_nil (List.splitOn_ne_nil _ _), List.map_cons, ih hlines,
      String.ofList_toList]

end Text

/-! ## Entries -/

/-- What the line of an event tells, apart from the time. -/
structure LogEntry where
  event : String
  operation : String
  issueKey : Option String
  principal : Option String
  projectKey : Option String
  outcome : String
  errorKind : Option String
deriving DecidableEq, Repr

namespace LogEntry

/-- The names of the members of a line. -/
def shape : RecordShape := .ofFields
  ["event", "timestamp_ms", "operation", "issue_key", "principal", "project_key", "outcome",
    "error_kind"]

/-- The members of a line that is stamped with a time. -/
def members (e : LogEntry) (stamp : Nat) : List (String × Json) := [
  ("event", toJson e.event),
  ("timestamp_ms", .nat stamp),
  ("operation", toJson e.operation),
  ("issue_key", toJson e.issueKey),
  ("principal", toJson e.principal),
  ("project_key", toJson e.projectKey),
  ("outcome", toJson e.outcome),
  ("error_kind", toJson e.errorKind)]

/-- The entry that a value of the data format is. -/
def ofJson? (j : Json) : Option LogEntry := do
  let r ← j.record? shape
  return {
    event := ← r.field "event"
    operation := ← r.field "operation"
    issueKey := ← r.optionalField "issue_key"
    principal := ← r.optionalField "principal"
    projectKey := ← r.optionalField "project_key"
    outcome := ← r.field "outcome"
    errorKind := ← r.optionalField "error_kind" }

/-- The entry that a line is. -/
def ofLine? (line : String) : Option LogEntry := (Json.parse? line).bind ofJson?

theorem proper_members (e : LogEntry) (stamp : Nat) : ∀ m ∈ e.members stamp, m.2.Proper := by
  have hexact (s : String) : (toJson s).Proper := (ExactForm.readsAs s).proper
  have hoption (o : Option String) : (toJson o).Proper := (readsAs_option o).proper
  have hstamp : (Json.nat stamp).Proper := Json.proper_int stamp
  simp [members, hexact, hoption, hstamp]

theorem ofJson?_record (e : LogEntry) (stamp : Nat) :
    ofJson? (Json.record (e.members stamp)) = some e := by
  have hrecord : (Json.record (e.members stamp)).record? shape = some ⟨e.members stamp⟩ :=
    Json.record?_record rfl (by decide)
  have hfield (name s : String) (hget : Record.get? ⟨e.members stamp⟩ name = some (toJson s)) :
      Record.field ⟨e.members stamp⟩ name = some s :=
    Record.field_of_get? hget (ExactForm.readsAs s)
  have hoption (name : String) (o : Option String)
      (hget : Record.get? ⟨e.members stamp⟩ name = some (toJson o)) :
      Record.optionalField ⟨e.members stamp⟩ name = some o :=
    Record.optionalField_of_get? hget (readsAs_option o)
  simp [ofJson?, hrecord, hfield "event" e.event rfl, hfield "operation" e.operation rfl,
    hoption "issue_key" e.issueKey rfl, hoption "principal" e.principal rfl,
    hoption "project_key" e.projectKey rfl, hfield "outcome" e.outcome rfl,
    hoption "error_kind" e.errorKind rfl]

end LogEntry

namespace AuditEvent

/-- What the line of the event tells. -/
def entry (e : AuditEvent) : LogEntry where
  event := e.call.event
  operation := e.call.name
  issueKey := e.issueKey.map (·.text)
  principal := e.principal.map (·.text)
  projectKey := e.projectKey.map (·.text)
  outcome := label e.outcome
  errorKind := e.errorKind.map label

theorem json_eq_record (e : AuditEvent) (stamp : Nat) :
    e.json stamp = .record (e.entry.members stamp) := by
  have hid {k : IdKind} (o : Option (Id k)) : toJson o = toJson (o.map (·.text)) := by
    cases o <;> rfl
  have hkind (o : Option ErrorKind) : toJson o = toJson (o.map label) := by cases o <;> rfl
  rw [json, hid, hid, hid, hkind]
  rfl

theorem proper_json (e : AuditEvent) (stamp : Nat) : (e.json stamp).Proper := by
  rw [json_eq_record]
  exact Json.proper_record (e.entry.proper_members stamp)

/-- A line is read as its event, whatever its texts and its time. -/
theorem ofLine?_line (e : AuditEvent) (stamp : Nat) :
    LogEntry.ofLine? (e.line stamp) = some e.entry := by
  rw [LogEntry.ofLine?, line, Json.parse?_print (e.proper_json stamp), Option.bind_some,
    json_eq_record, LogEntry.ofJson?_record]

/-- No control character stands in a line, and so no end of a line. -/
theorem space_le_of_mem_line {e : AuditEvent} {stamp : Nat} {c : Char}
    (h : c ∈ (e.line stamp).toList) : 0x20 ≤ c.toNat :=
  Json.space_le_of_mem_print (e.proper_json stamp) h

end AuditEvent

/-! ## Files -/

/-- A file that grows by lines. -/
theorem AuditSink.record_file (content : ByteArray) (lines : List String) (stamp : Nat)
    (e : AuditEvent) :
    (AuditSink.file (content ++ (Text.joinLines lines).toUTF8)).record stamp e =
      .file (content ++ (Text.joinLines (lines ++ [e.line stamp])).toUTF8) := by
  simp [AuditSink.record, Text.joinLines_append, Text.joinLines_singleton, ByteArray.append_assoc]

end Triage
