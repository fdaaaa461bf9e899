/-!
# Service limits

How much the service gives and takes in one call.
-/

namespace Triage

/-- The limits of a service. -/
structure ServiceLimits where
  defaultPageSize : Nat := 100
  maxPageSize : Nat := 500
  maxTagsPerIssue : Nat := 100
  maxMessageLength : Nat := 4000
deriving DecidableEq, Repr, Inhabited

/-- Why limits are refused. -/
inductive LimitsError
  | zeroPageSize
  | defaultAboveMax (default max : Nat)
  | zeroMessageLength
deriving DecidableEq, Repr

/-- The text of the error. -/
def LimitsError.message : LimitsError → String
  | .zeroPageSize => "page sizes must be greater than zero"
  | .defaultAboveMax default max => s!"default page size {default} exceeds max page size {max}"
  | .zeroMessageLength => "max message length must be greater than zero"

namespace ServiceLimits

/-- The first reason to refuse the limits. -/
def validate (l : ServiceLimits) : Except LimitsError Unit :=
  if l.defaultPageSize = 0 ∨ l.maxPageSize = 0 then .error .zeroPageSize
  else if l.maxPageSize < l.defaultPageSize then
    .error (.defaultAboveMax l.defaultPageSize l.maxPageSize)
  else if l.maxMessageLength = 0 then .error .zeroMessageLength
  else .ok ()

/-- The page size for a request: what was asked for or the default, up to the maximum. -/
def pageSize (l : ServiceLimits) (asked : Option Nat) : Nat :=
  min (asked.getD l.defaultPageSize) l.maxPageSize

end ServiceLimits

end Triage
