import Formwork.Context.Scope
import Formwork.Template.Evaluator

/-!
# Initial values

A form starts with the defaults of its fields: literals as they are, templates as what they render
to, brought to the kind of the field. A field without a default starts with the empty value of its
kind. A group starts with one instance when one of its members has a default, and else with none.
-/

namespace Formwork

/-- The value of a declared default. -/
def defaultValue (default : Value) (kind : FieldKind) (context : Members) :
    Except NumberFault Value :=
  match default with
  | .str s =>
    if Template.isTemplate (.str s) then
      kind.coerceDefault (Template.evaluateText Template.defaultRules s context)
    else .ok (.str s)
  | v => .ok v

/-- The value that a field starts with. -/
def Field.initialValue (f : Field) (context : Members) : Except NumberFault Value :=
  if f.default.isDeclared then defaultValue f.default.toValue f.kind context
  else .ok f.kind.emptyValue

namespace Initial

/-- The value that a group starts with. -/
def groupValue (group : String) (members : List Field) (context : Members) :
    Except NumberFault Value :=
  if members.any fun m => m.default.isDeclared then do
    let scope := Scope.ofInstance context group 0 []
    let values ← members.mapM fun m => do .ok (plainId group m.id, ← m.initialValue scope)
    .ok (.list [.object (Ordered.ofList values)])
  else .ok (.list [])

end Initial

/-- The initial values of fields. Groups come after the other fields. -/
def initialValues (fields : List Field) (context : Members) : Except NumberFault Members := do
  let own ← (ownFields fields).mapM fun f => do .ok (f.id, ← f.initialValue context)
  let grouped ← (groupedFields fields).mapM fun (g, members) => do
    .ok (g, ← Initial.groupValue g members context)
  .ok (Ordered.ofList (own ++ grouped))

/-- The initial values of a block. -/
def Block.initialValues (b : Block) (context : Members) : Except NumberFault Members :=
  Formwork.initialValues b.fields context

/-- The initial values of the rendered part of a form. -/
def Form.initialValues (f : Form) (context : Members) : Except NumberFault Members :=
  Formwork.initialValues (f.renderBlocks.flatMap Block.fields) context

end Formwork
