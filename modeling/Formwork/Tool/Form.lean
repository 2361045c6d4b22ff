import Formwork.Tool.Target
import Formwork.Values.ErrorTree
import Formwork.Values.Initial
import Formwork.Values.Payload
import Formwork.Values.State

/-!
# Tools on forms

What can be asked about one form without asking for rules: its schema, what is wrong with values,
what values it starts with, the next case context, the states of its parts, and what it submits.
-/

namespace Formwork.Tool

/-- The schema of a form. -/
def compile (form : Form) : Except ToolStop Schema :=
  (form.compile []).mapError (ToolStop.ofSchema .schema)

/-- What is wrong with values. -/
def validate (values : Members) (form : Form) : Except ToolStop (List Issue) := do
  let schema ← compile form
  (schema.validate values).mapError fun fault => .interrupted (.range fault)

/-- The case context at the opening of a case, and the values that the form starts with. -/
def defaults (attributes : Members) (form : Form) : Except ToolStop (Members × Members) :=
  let context := CaseContext.ofPrefill attributes
  ((form.initialValues (Scope.form [] context)).map fun values => (context, values)).mapError
    fun fault => .interrupted (.number fault)

/-- The case context after an edit. -/
structure ContextUpdate where
  context : Members
  changed : Bool
  discriminants : List String

/-- The case context after an edit. -/
def updateContext (values previous : Members) (form : Form) : Except ToolStop ContextUpdate :=
  ((CaseContext.edit (CaseContext.ofPrefill previous) values form.discriminants).map
    fun (context, changed) => ⟨context, changed, form.discriminants.map Field.id⟩).mapError
      fun fault => .interrupted (.number fault)

/-- The states of the blocks and of the fields of a form. -/
def states (values context : Members) (form : Form) : Ordered State × Ordered State :=
  let scope := Scope.form values context
  (Ordered.ofList (form.blocks.map fun b => (b.id, State.of b.status scope)),
    form.fieldStates scope)

/-- Where a registered form is submitted, and what. -/
def submission (forms : Registry Form) (id : String) (values : Members) :
    Except ToolStop (Submission × Value) :=
  match forms.lookup id with
  | none => .error (.refused (.unknownForm id forms.ids))
  | some form =>
    match form.submission with
    | none => .error (.refused (.noSubmission id))
    | some s =>
      ((payload s.payloadTemplate values).map fun v => (s, v)).mapError
        fun fault => .interrupted (.number fault)

end Formwork.Tool
