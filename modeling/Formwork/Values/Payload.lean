import Formwork.Document.FieldKind
import Formwork.Json.Reader
import Formwork.Template.Evaluator

/-!
# Payloads

What a form submits is rendered from a template over its values. Output that is JSON is submitted
as the value it describes, other output as text. Without a template, or when nothing is rendered,
the values are submitted as they are.
-/

namespace Formwork

/-- The payload of a submission. -/
def payload (template : Option String) (values : Members) : Except NumberFault Value :=
  match template with
  | none => .ok (.object values)
  | some t =>
    if Text.isBlankText t then .ok (.object values)
    else
      let context := Ordered.insertAll [("formData", .object values)] values
      let rendered := Template.evaluateText Template.defaultRules t context
      if Text.isBlankText rendered then .ok (.object values)
      else
        match Json.read rendered with
        | .ok v => .ok v
        | .error .malformed => .ok (.str rendered)
        | .error (.integerTooLong digits) => .error (.integerTooLong digits)

end Formwork
