import Formwork.Document.Form
import Formwork.Template.Evaluator

/-!
# The state of blocks and fields

Blocks and fields may be hidden, disabled or read-only, each by a template that is a condition. One
without a template is visible, enabled and editable.
-/

namespace Formwork

/-- A status template as a condition. -/
def StatusEntry.holds (e : StatusEntry) (context : Members) : Bool :=
  match nonEmpty? e.text? with
  | some t => Template.holds Template.defaultRules t context
  | none => false

/-- The state of a block or field. -/
structure State where
  hidden : Bool
  disabled : Bool
  readonly : Bool
  deriving DecidableEq

/-- The state that status templates give. -/
def State.of (status : Option Status) (context : Members) : State :=
  match status with
  | none => ⟨false, false, false⟩
  | some s => ⟨s.hidden.holds context, s.disabled.holds context, s.readonly.holds context⟩

/-- A state as a value. -/
def State.write (s : State) : Value :=
  .object [("hidden", .bool s.hidden), ("disabled", .bool s.disabled),
    ("readonly", .bool s.readonly)]

/-- The state of every field. Of fields with one id the last counts. -/
def Form.fieldStates (f : Form) (context : Members) : Ordered State :=
  Ordered.ofList (f.fields.map fun d => (d.id, State.of d.status context))

end Formwork
