import Triage.Issue.Basic

/-!
# Requests and answers of the service
-/

namespace Triage

/-- What a caller asks for when creating an issue by hand. -/
structure ManualIssueRequest where
  componentKey : ComponentKey
  ruleKey : RuleKey
  line : Option Int64 := none
  message : Option String := none
  severity : Option Severity := none
  effortToFix : Option Binary64 := none
deriving DecidableEq

/-- How many issues a rule has, with the rule's name if it is still known. -/
structure RuleCount where
  ruleKey : RuleKey
  name : Option String
  count : Nat
deriving DecidableEq

end Triage
