import Formwork.Text.Quoted

/-!
# Why references are not resolved

Resolution gives a complete form or one of these causes, never a part of a form.
-/

namespace Formwork

open Formwork.Text (quoted quotedList)

/-- Why a block cannot serve as a template. -/
inductive TemplateFault where
  | unknown
  | repeatable
  deriving DecidableEq

def TemplateFault.reason : TemplateFault → String
  | .unknown => "not found"
  | .repeatable => "template block is itself repeatable"

/-- Why a remote sub-form is not available. -/
inductive FetchFault where
  /-- The request got no answer; the texts are the address and the reason. -/
  | unreachable (url reason : String)
  | refused (status : Nat)
  /-- The answer is no sub-form; the summary is there when it could be parsed. -/
  | invalid (url : String) (summary : Option String)
  deriving DecidableEq

/-- Why references are not resolved. -/
inductive ReferenceError where
  /-- A sub-form that the provider does not know, with the ids it reports to know. -/
  | missingSubForm (id : String) (available : List String)
  | missingTemplate (id referencing : String) (fault : TemplateFault)
  /-- A reference that was met again while it was being resolved, and the references in progress,
  outermost first, up to and including it. -/
  | cyclic (id : String) (chain : List String)
  | duplicateBlock (id : String)
  | conflicting (blockId : String)
  | depthExceeded (id : String) (depth : Nat) (limit : Int)
  | fetch (id : String) (fault : FetchFault)
  deriving DecidableEq

namespace ReferenceError

/-- The name of a cause. -/
def name : ReferenceError → String
  | .missingSubForm .. => "MissingSubFormError"
  | .missingTemplate .. => "MissingTemplateBlockError"
  | .cyclic .. => "CyclicReferenceError"
  | .duplicateBlock .. => "DuplicateBlockIdError"
  | .conflicting .. => "ConflictingReferenceError"
  | .depthExceeded .. => "ReferenceDepthExceededError"
  | .fetch .. => "ReferenceResolutionError"

/-- The ids that are available, or the word for none. -/
def availableText : List String → String
  | [] => "none"
  | ids => ", ".intercalate ids

/-- The message of a cause. -/
def message : ReferenceError → String
  | .missingSubForm id available =>
    "Sub-form '" ++ id ++ "' not found. Available sub-forms: " ++ availableText available
  | .missingTemplate id referencing fault =>
    "Template block '" ++ id ++ "' referenced by block '" ++ referencing ++
      "' cannot be used: " ++ fault.reason
  | .cyclic id chain =>
    "Circular reference detected for '" ++ id ++ "': " ++ " -> ".intercalate (chain ++ [id])
  | .duplicateBlock id =>
    "Block id '" ++ id ++ "' appears more than once after sub-form resolution. " ++
      "Use subFormInstanceId to distinguish repeated uses of the same sub-form."
  | .conflicting id =>
    "Block '" ++ id ++ "' declares both subFormRef and repeatableBlockRef; " ++
      "combining the two references is not supported"
  | .depthExceeded id depth limit =>
    "Reference depth limit exceeded at '" ++ id ++ "' (depth: " ++ toString depth ++ ", limit: " ++
      toString limit ++ "). To increase the limit, set the " ++
      "FORMS_MAX_REFERENCE_DEPTH environment variable to a higher value."
  | .fetch id (.unreachable url reason) =>
    "Failed to fetch sub-form '" ++ id ++ "' from " ++ url ++ ": " ++ reason
  | .fetch id (.refused status) =>
    "Sub-form '" ++ id ++ "' fetch failed with HTTP " ++ toString status
  | .fetch id (.invalid url summary) =>
    "Sub-form '" ++ id ++ "' from " ++ url ++ " is not a valid document" ++
      (summary.map (": " ++ ·)).getD ""

/-- A cause with its particulars, as a term. -/
def term? : ReferenceError → Option String
  | .missingSubForm id _ => some ("MissingSubFormError(sub_form_id=" ++ quoted id ++ ")")
  | .missingTemplate id referencing _ =>
    some ("MissingTemplateBlockError(block_id=" ++ quoted id ++ ", referencing_block_id=" ++
      quoted referencing ++ ")")
  | .cyclic id chain =>
    some ("CyclicReferenceError(reference_id=" ++ quoted id ++ ", chain=" ++ quotedList chain ++
      ")")
  | .duplicateBlock id => some ("DuplicateBlockIdError(block_id=" ++ quoted id ++ ")")
  | .conflicting id => some ("ConflictingReferenceError(block_id=" ++ quoted id ++ ")")
  | .depthExceeded id depth limit =>
    some ("ReferenceDepthExceededError(reference_id=" ++ quoted id ++ ", depth=" ++
      toString depth ++ ", limit=" ++ toString limit ++ ")")
  | .fetch .. => none

end ReferenceError

end Formwork
