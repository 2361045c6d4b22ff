import Formwork.Document.Fault
import Formwork.Document.FieldKind
import Formwork.Reference.Error
import Formwork.Rehydration.Error
import Formwork.Template.Error

/-!
# Why a tool gives no result

A tool that cannot do what it is asked to says so in its answer: it refuses. Something that nobody
who calls a tool can mend ends it without an answer: it is interrupted.
-/

namespace Formwork

/-- Why a tool refuses. -/
inductive Refusal where
  /-- There is no application to work with. -/
  | unavailable
  | noTarget
  | unknownTarget (id : String) (available : List String)
  | notLoaded (error : String)
  | reference (error : ReferenceError)
  | invalidDelta (faults : DocumentFaults)
  | schema (error : SchemaError)
  | unknownForm (id : String) (available : List String)
  | noSubmission (id : String)
  | noRules
  /-- The form does not compile before any rules are asked for. -/
  | base (error : SchemaError)
  | rehydration (error : RehydrationError)

namespace Refusal

/-- How many ids a message lists at most. -/
def listedIds : Nat := 5

/-- The message of a refusal. -/
def message : Refusal → String
  | .unavailable => "Server context not available. Tool requires context to access resources."
  | .noTarget => "Provide either 'form' (registered id) or 'descriptor' (inline)"
  | .unknownTarget id available =>
    "Form '" ++ id ++ "' not found. Available forms: " ++
      ", ".intercalate (available.take listedIds) ++
      (if listedIds < available.length then " (and more)" else "") ++
      ". Use list_forms() to see all forms."
  | .notLoaded error => error
  | .reference e => e.message
  | .invalidDelta d => "Invalid rule delta: " ++ d.summary
  | .schema e => e.message
  | .unknownForm id _ => "Form not found: " ++ id
  | .noSubmission id => "Form '" ++ id ++ "' has no submission configuration"
  | .noRules => noRulesMessage
  | .base e => e.message
  | .rehydration e => e.message

/-- The name of the cause, where the answer gives it. -/
def cause? : Refusal → Option String
  | .reference e => some e.name
  | .schema e => some e.name
  | .rehydration e => some e.name
  | _ => none

/-- The forms that there are, where the answer gives them. -/
def available? : Refusal → Option (List String)
  | .unknownForm _ available => some available
  | _ => none

end Refusal

/-- What interrupts a tool. -/
inductive ToolInterruption where
  | noApp
  | number (fault : NumberFault)
  | range (fault : RangeFault)
  | call (fault : Template.CallFault)
  | rules (failure : FetchFailure)

/-- Why a tool gives no result. -/
inductive ToolStop where
  | refused (cause : Refusal)
  | interrupted (cause : ToolInterruption)

namespace ToolStop

/-- A schema that is not compiled: a malformed rule is refused as `refusal` says. -/
def ofSchema (refusal : SchemaError → Refusal) : SchemaError → ToolStop
  | .outOfRange fault => .interrupted (.range fault)
  | e => .refused (refusal e)

/-- A request for rules that failed: the provider's own failures are refused. -/
def ofFetch : FetchFailure → ToolStop
  | .provider e => .refused (.rehydration (.fetch (.provider e)))
  | f => .interrupted (.rules f)

end ToolStop

end Formwork
