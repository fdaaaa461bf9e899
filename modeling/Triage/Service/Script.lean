import Triage.Audit
import Triage.Search.Index
import Triage.Store.Call

/-!
# Scripts

The work of a service call as a sequence of calls to its collaborators.  A script says what is
asked next and how it goes on for every answer; it does not say who answers.
-/

namespace Triage

/-- A call of the search index. -/
inductive IndexCall
  | put (doc : IssueDoc)
  | remove (key : IssueKey)
  | keys
  | get (key : IssueKey)
  | search (request : SearchRequest)
  | listTags (substring : Option String) (size : Nat)
  | facet (query : IssueQuery) (field : FacetField)
deriving DecidableEq

/-- What a successful call of the index answers. -/
abbrev IndexCall.Answer : IndexCall → Type
  | .put _ => Unit
  | .remove _ => Unit
  | .keys => List IssueKey
  | .get _ => Option IssueDoc
  | .search _ => SearchResult
  | .listTags _ _ => List String
  | .facet _ _ => FacetCounts

/-- A call of the catalog. -/
inductive CatalogCall
  | rule (key : RuleKey)
  | user (login : Login)
  | plan (key : ActionPlanKey)
  | component (key : ComponentKey)
  | project (uuid : ProjectUuid)
deriving DecidableEq

/-- What a successful call of the catalog answers. -/
abbrev CatalogCall.Answer : CatalogCall → Type
  | .rule _ => Option Rule
  | .user _ => Option User
  | .plan _ => Option ActionPlan
  | .component _ => Option Component
  | .project _ => Option Component

/-- A step of a script: a call of the store, the index or the catalog, a question to the gate, a
fresh key, the lock of a key entered or left, an audit event. -/
inductive Call
  | store (c : StoreCall)
  | index (c : IndexCall)
  | catalog (c : CatalogCall)
  | permits (principal : Principal) (op : Operation) (project : ProjectKey)
  | freshKey
  | enter (key : IssueKey)
  | leave (key : IssueKey)
  | record (event : AuditEvent)
deriving DecidableEq

/-- What a step answers. -/
abbrev Call.Answer : Call → Type
  | .store c => Except StoreError c.Answer
  | .index c => Except IndexError c.Answer
  | .catalog c => Except CatalogError c.Answer
  | .permits _ _ _ => Bool
  | .freshKey => IssueKey
  | .enter _ => Bool
  | .leave _ => Unit
  | .record _ => Unit

/-- A script that ends in an `α`. -/
inductive Script (α : Type) : Type
  | done (a : α)
  | ask (c : Call) (next : c.Answer → Script α)

namespace Script

variable {α β : Type}

/-- The script of one step. -/
def single (c : Call) : Script c.Answer := .ask c .done

/-- The script that goes on with what the first one ends in. -/
def bind : Script α → (α → Script β) → Script β
  | .done a, f => f a
  | .ask c next, f => .ask c fun r => (next r).bind f

instance : Monad Script where
  pure := .done
  bind := .bind

end Script

/-- A script that may fail. -/
abbrev Attempt (α : Type) := ExceptT ServiceError Script α

namespace Attempt

/-- Calls the store. -/
def store (c : StoreCall) : Attempt c.Answer :=
  .mk (.ask (.store c) fun r => .done (r.mapError ServiceError.store))

/-- Calls the index. -/
def index (c : IndexCall) : Attempt c.Answer :=
  .mk (.ask (.index c) fun r => .done (r.mapError ServiceError.index))

/-- Calls the catalog. -/
def catalog (c : CatalogCall) : Attempt c.Answer :=
  .mk (.ask (.catalog c) fun r => .done (r.mapError ServiceError.catalog))

/-- Fails unless the gate permits the operation. -/
def authorize (principal : Principal) (op : Operation) (project : ProjectKey) : Attempt Unit :=
  .mk (.ask (.permits principal op project) fun permitted =>
    .done (if permitted then .ok () else .error .forbidden))

/-- Draws a fresh key. -/
def freshKey : Attempt IssueKey := .mk (.ask .freshKey fun key => .done (.ok key))

/-- What was found, or an error. -/
def found {α : Type} (o : Option α) (e : ServiceError) : Attempt α :=
  .mk (.done (o.elim (.error e) .ok))

/-- A result as an attempt. -/
def ofExcept {α : Type} (r : Except ServiceError α) : Attempt α := .mk (.done r)

end Attempt

end Triage
