import Triage.Codec.Issue
import Triage.Service.Error
import Triage.Service.Request
import Triage.Store.Settings

/-!
# JSON forms of service requests and settings
-/

namespace Triage

instance : JsonForm ErrorKind := .ofLabels _

instance : JsonForm JournalMode := .ofLabels _

instance : JsonForm SyncMode := .ofLabels _

instance : JsonForm ServiceLimits where
  toJson l := .record [
    ("default_page_size", toJson l.defaultPageSize),
    ("max_page_size", toJson l.maxPageSize),
    ("max_tags_per_issue", toJson l.maxTagsPerIssue),
    ("max_message_length", toJson l.maxMessageLength)]
  ofJson? j := do
    let r ← j.record? (.ofFields
      ["default_page_size", "max_page_size", "max_tags_per_issue", "max_message_length"])
    return ⟨← r.field "default_page_size", ← r.field "max_page_size",
      ← r.field "max_tags_per_issue", ← r.field "max_message_length"⟩

instance : JsonForm ManualIssueRequest where
  toJson q := .record [
    ("component_key", toJson q.componentKey),
    ("rule_key", toJson q.ruleKey),
    ("line", toJson q.line),
    ("message", toJson q.message),
    ("severity", toJson q.severity),
    ("effort_to_fix", toJson q.effortToFix)]
  ofJson? j := do
    let r ← j.record? (.ofFields
      ["component_key", "rule_key", "line", "message", "severity", "effort_to_fix"])
    return ⟨← r.field "component_key", ← r.field "rule_key", ← r.optionalField "line",
      ← r.optionalField "message", ← r.optionalField "severity",
      ← r.optionalField "effort_to_fix"⟩

instance : JsonForm RuleCount where
  toJson c := .record [
    ("rule_key", toJson c.ruleKey), ("name", toJson c.name), ("count", toJson c.count)]
  ofJson? j := do
    let r ← j.record? (.ofFields ["rule_key", "name", "count"])
    return ⟨← r.field "rule_key", ← r.optionalField "name", ← r.field "count"⟩

instance : JsonForm DatabaseSettings where
  toJson s := .record [
    ("path", toJson s.path),
    ("busy_timeout_ms", toJson s.busyTimeoutMs),
    ("journal_mode", toJson s.journalMode),
    ("sync_mode", toJson s.syncMode)]
  ofJson? j := do
    let r ← j.record? ⟨["path", "busy_timeout_ms", "journal_mode", "sync_mode"], 1⟩
    return ⟨← r.field "path", ← r.defaultField "busy_timeout_ms" defaultBusyTimeoutMs,
      ← r.defaultField "journal_mode" .wal, ← r.defaultField "sync_mode" .full⟩

end Triage
