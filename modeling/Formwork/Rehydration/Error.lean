import Formwork.Document.Fault
import Formwork.Schema.Error

/-!
# Why rules are not applied

A request for rules fails when the provider fails, or when what it answers cannot be applied.
-/

namespace Formwork

/-- A rule provider that gave no usable delta. -/
structure ProviderError where
  message : String
  status : Option Int
  deriving DecidableEq

/-- The term of a provider's failure. -/
def ProviderError.term (e : ProviderError) : String :=
  "RuleProviderError(status_code=" ++ (e.status.map toString).getD "None" ++ ")"

/-- How a request for rules fails at the provider. -/
inductive FetchFailure where
  | provider (error : ProviderError)
  /-- The answer is no delta. -/
  | invalidDelta (faults : DocumentFaults)
  /-- The context holds a number that cannot be sent. -/
  | unsendable
  /-- A failure that is not about rules. -/
  | other (message : String)

/-- Why rules are not applied. -/
inductive RehydrationError where
  | fetch (failure : FetchFailure)
  | apply (error : SchemaError)

/-- The message that there is nothing that gives rules. -/
def noRulesMessage : String := "No rule provider configured. Set FORMS_RULES_URL."

namespace RehydrationError

/-- The name of a cause. -/
def name : RehydrationError → String
  | .fetch (.provider _) => "RuleProviderError"
  | .fetch (.invalidDelta _) => "ValidationError"
  | .fetch .unsendable => "ValueError"
  | .fetch (.other _) => "RuntimeError"
  | .apply e => e.name

/-- The message of a cause. -/
def message : RehydrationError → String
  | .fetch (.provider e) => e.message
  | .fetch (.invalidDelta d) => d.summary
  | .fetch .unsendable => "Out of range float values are not JSON compliant"
  | .fetch (.other m) => m
  | .apply e => e.message

end RehydrationError

end Formwork
