import Formwork.Document.Form

/-!
# Rule deltas

A rule provider answers with a delta: what to change in the statuses of blocks and in the rules and
statuses of fields, by their ids.
-/

namespace Formwork

/-- What a delta says about a block. -/
structure BlockRule where
  id : String
  status : Option Status
  deriving DecidableEq

/-- What a delta says about a field. -/
structure FieldRule where
  id : String
  validation : Option (List ValidationRule)
  status : Option Status
  deriving DecidableEq

/-- An overlay of rules and statuses. -/
structure RuleDelta where
  blocks : List BlockRule
  fields : List FieldRule
  deriving DecidableEq

/-- The delta that changes nothing. -/
def RuleDelta.empty : RuleDelta := ⟨[], []⟩

end Formwork
