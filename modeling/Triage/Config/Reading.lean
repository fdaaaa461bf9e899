import Triage.Config.Basic
import Triage.Record
import Triage.Toml.Parser

/-!
# Reading configurations

The configuration that a document holds.  Sections and settings that are missing have defaults.
Unknown ones have no effect, but their numbers must have values; what stands in a row behind the
last setting is not looked at.
-/

namespace Triage

namespace Toml

/-- The text of a string. -/
def text? : Toml → Option String
  | .string s => some s
  | _ => none

/-- The number that an integer is, if it fits an unsigned word of 64 bits. -/
def count? : Toml → Option Nat
  | .number n => (n.toInt?.filter fun i => 0 ≤ i && i < Int.pow 2 64).map Int.toNat
  | _ => none

/-- The items of an array. -/
def items? : Toml → Option (List Toml)
  | .array items => some items
  | .tables newestFirst => some (newestFirst.reverse.map (.table .header))
  | _ => none

/-- Whether the value is a table or an array that holds nothing. -/
def isVoid : Toml → Bool
  | .table _ es => es.isEmpty
  | .array items => items.isEmpty
  | _ => false

/-- The word that names a value of a closed vocabulary: a string, or the only name in a table with
nothing under it. -/
def word? : Toml → Option String
  | .string s => some s
  | .table _ [(s, v)] => if v.isVoid then some s else none
  | _ => none

/-- The value of a closed vocabulary that the word names. -/
def labelled? {α : Type} [Label α] (t : Toml) : Option α := t.word?.bind Label.ofLabel?

/-- The record that a table or an array is; a date counts as a table without settings. -/
def record? (shape : RecordShape) : Toml → Option (Record Toml)
  | .table _ es =>
    if es.all fun e => shape.fields.contains e.1 || e.2.isReadable then shape.ofTable? es else none
  | .moment => shape.ofTable? []
  | t => t.items?.bind (shape.ofRow? true)

/-- A record all of whose fields have defaults. -/
def section? (fields : List String) (t : Toml) : Option (Record Toml) := t.record? ⟨fields, 0⟩

end Toml

namespace StoreConfig

/-- The section of the store. -/
def ofToml? (t : Toml) : Option StoreConfig := do
  let r ← t.section? ["type", "path", "busy_timeout_ms", "journal_mode", "sync_mode"]
  return {
    type := ← r.withDefault "type" .memory Toml.labelled?
    path := ← r.withDefault "path" none fun v => v.text?.map some
    busyTimeoutMs := ← r.withDefault "busy_timeout_ms" defaultBusyTimeoutMs Toml.count?
    journalMode := ← r.withDefault "journal_mode" .wal Toml.labelled?
    syncMode := ← r.withDefault "sync_mode" .full Toml.labelled? }

end StoreConfig

namespace AuditConfig

/-- The section of the audit log. -/
def ofToml? (t : Toml) : Option AuditConfig := do
  let r ← t.section? ["sink", "path"]
  return {
    sink := ← r.withDefault "sink" .console Toml.labelled?
    path := ← r.withDefault "path" none fun v => v.text?.map some }

end AuditConfig

namespace GrantConfig

/-- An entry of the grants. -/
def ofToml? (t : Toml) : Option GrantConfig := do
  let r ← t.record? (.ofFields ["project", "user", "group", "roles"])
  return {
    project := ← r.required "project" Toml.text?
    user := ← r.withDefault "user" none fun v => v.text?.map some
    group := ← r.withDefault "group" none fun v => v.text?.map some
    roles := ← r.required "roles" fun v => v.items?.bind (·.mapM Toml.labelled?) }

end GrantConfig

namespace Config

/-- The limits with the page sizes of a section. -/
def readSearch (l : ServiceLimits) (t : Toml) : Option ServiceLimits := do
  let r ← t.section? ["default_page_size", "max_page_size"]
  return { l with
    defaultPageSize := ← r.withDefault "default_page_size" l.defaultPageSize Toml.count?
    maxPageSize := ← r.withDefault "max_page_size" l.maxPageSize Toml.count? }

/-- The limits with the limits on issues of a section. -/
def readIssues (l : ServiceLimits) (t : Toml) : Option ServiceLimits := do
  let r ← t.section? ["max_tags_per_issue", "max_message_length"]
  return { l with
    maxTagsPerIssue := ← r.withDefault "max_tags_per_issue" l.maxTagsPerIssue Toml.count?
    maxMessageLength := ← r.withDefault "max_message_length" l.maxMessageLength Toml.count? }

/-- The configuration of a document. -/
def ofEntries? (es : Toml.Entries) : Option Config := do
  let r ← Toml.section? ["store", "audit", "search", "issues", "grants"] (.table .header es)
  let limits : ServiceLimits := {}
  let limits ← r.withDefault "search" limits (readSearch limits)
  let limits ← r.withDefault "issues" limits (readIssues limits)
  return {
    store := ← r.withDefault "store" {} StoreConfig.ofToml?
    audit := ← r.withDefault "audit" {} AuditConfig.ofToml?
    limits := limits
    grants := ← r.withDefault "grants" [] fun v => v.items?.bind (·.mapM GrantConfig.ofToml?) }

/-- The configuration of a text. -/
def parse? (text : String) : Option Config := (Toml.parse? text).bind ofEntries?

end Config

end Triage
