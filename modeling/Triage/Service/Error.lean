import Triage.Decimal.Notation
import Triage.Service.Limits
import Triage.Store.Error
import Triage.Tags
import Triage.Timestamp
import Triage.Workflow
import Triage.Id

/-!
# Service errors

The causes for which a call of the service fails, their kinds and their texts.
-/

namespace Triage

/-- What a search index reports when it cannot answer. -/
inductive IndexError
  | unavailable (detail : String)
  | invalid (detail : String)
deriving DecidableEq, Repr

/-- The text of the error. -/
def IndexError.message : IndexError → String
  | .unavailable d => "search index unavailable: " ++ d
  | .invalid d => "search index invalid request: " ++ d

/-- What a catalog reports when it cannot answer. -/
structure CatalogError where
  detail : String
deriving DecidableEq, Repr

/-- The text of the error. -/
def CatalogError.message (e : CatalogError) : String := "catalog unavailable: " ++ e.detail

/-- The kind of a service error, which is what callers and the audit log go by. -/
inductive ErrorKind
  | notFound
  | forbidden
  | invalidArgument
  | illegalTransition
  | storeUnavailable
  | indexUnavailable
  | catalogUnavailable
deriving DecidableEq, Repr

instance : Label ErrorKind where
  noun := "error kind"
  all := [.notFound, .forbidden, .invalidArgument, .illegalTransition, .storeUnavailable,
    .indexUnavailable, .catalogUnavailable]
  label
    | .notFound => "not_found"
    | .forbidden => "forbidden"
    | .invalidArgument => "invalid_argument"
    | .illegalTransition => "illegal_transition"
    | .storeUnavailable => "store_unavailable"
    | .indexUnavailable => "index_unavailable"
    | .catalogUnavailable => "catalog_unavailable"

/-- Whether the same call may succeed later. -/
def ErrorKind.isTransient : ErrorKind → Bool
  | .storeUnavailable | .indexUnavailable | .catalogUnavailable => true
  | _ => false

/-- A field of a manual issue that is refused. -/
inductive FieldError
  | line (value : Int64)
  | effort (value : Binary64)
  | message (max : Nat)
deriving DecidableEq, Repr

/-- The text of the error. -/
def FieldError.text : FieldError → String
  | .line n => "Line must be greater than or equal to 1: " ++ toString n.toInt
  | .effort x => "Effort to fix must be a non-negative number: " ++ Decimal.plainText x
  | .message max => s!"Message must not exceed {max} characters"

/-- Why a call of the service failed. -/
inductive ServiceError
  | unknownIssue (key : IssueKey)
  | unknownUser (login : Login)
  | unknownActionPlan (key : ActionPlanKey)
  | unknownProject (uuid : ProjectUuid)
  | unknownComponent (key : ComponentKey)
  | forbidden
  | unknownRule (key : RuleKey)
  | ruleNotManual (key : RuleKey)
  | unknownFacet (name : String)
  | tags (e : TagError)
  | limits (e : LimitsError)
  | fields (es : List FieldError)
  | illegalTransition (e : Workflow.IllegalTransition)
  | store (e : StoreError)
  | index (e : IndexError)
  | catalog (e : CatalogError)
deriving DecidableEq, Repr

namespace ServiceError

/-- The kind of the error. -/
def kind : ServiceError → ErrorKind
  | .unknownIssue _ | .unknownUser _ | .unknownActionPlan _ | .unknownProject _
  | .unknownComponent _ => .notFound
  | .forbidden => .forbidden
  | .unknownRule _ | .ruleNotManual _ | .unknownFacet _ | .tags _ | .limits _ | .fields _ =>
    .invalidArgument
  | .illegalTransition _ => .illegalTransition
  | .store _ => .storeUnavailable
  | .index _ => .indexUnavailable
  | .catalog _ => .catalogUnavailable

/-- The text of the error. -/
def message : ServiceError → String
  | .unknownIssue k => "Unknown issue: " ++ k.text
  | .unknownUser l => "Unknown user: " ++ l.text
  | .unknownActionPlan k => "Unknown action plan: " ++ k.text
  | .unknownProject u => "Unknown project: " ++ u.text
  | .unknownComponent k => "Unknown component: " ++ k.text
  | .forbidden => "Insufficient privileges"
  | .unknownRule k => "Unknown rule: " ++ k.text
  | .ruleNotManual k => "Issues can be created only on rules marked as 'manual': " ++ k.text
  | .unknownFacet n => "Unknown facet: " ++ n
  | .tags e => e.message
  | .limits e => e.message
  | .fields es => ", ".intercalate (es.map FieldError.text)
  | .illegalTransition e => e.message
  | .store e => e.message
  | .index e => e.message
  | .catalog e => e.message

/-- A key lock that a failed call left unusable. -/
def lockPoisoned : ServiceError := .store ⟨.other, "issue key lock poisoned"⟩

/-- A store that took a row and returned none. -/
def noRowReturned : ServiceError := .store ⟨.other, "insert returned no row"⟩

/-- A document that is not there right after it was written. -/
def documentMissing (key : IssueKey) : ServiceError :=
  .index (.unavailable ("indexed document missing after write: " ++ key.text))

end ServiceError

end Triage
