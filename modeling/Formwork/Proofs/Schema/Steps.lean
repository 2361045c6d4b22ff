import Formwork.Proofs.Schema.Compiled

/-!
# The steps of compiling

Compiling takes the rules of a form one by one, those of its own fields first and then those
of each group, whose bounds come last. What is compiled is left out here: a step is taken or
it fails (`CompileStep.run`), and compiling fails as the first step that does.
-/

namespace Formwork

/-- A step of compiling: a rule of a field, or the bounds of a group. -/
inductive CompileStep where
  | rule (fieldId : String) (r : ValidationRule)
  | bounds (owner : Block)

namespace CompileStep

/-- Whether the step is taken. -/
def run (validators : Ordered CustomValidator) : CompileStep → Except SchemaError Unit
  | .rule fieldId r => (r.compile validators fieldId).map fun _ => ()
  | .bounds owner =>
      if (owner.minInstances.toList ++ owner.maxInstances.toList).all (· < GroupSchema.countLimit)
      then .ok () else .error (.outOfRange .countTooLarge)

end CompileStep

/-- The steps that a field takes. -/
def Field.compileSteps (f : Field) : List CompileStep := f.validation.map (.rule f.id)

/-- The steps that a group takes: its members', and its bounds. -/
def groupSteps (blocks : List Block) (e : String × List Field) : List CompileStep :=
  match groupOwner? blocks e.1 with
  | some owner => e.2.flatMap Field.compileSteps ++ [.bounds owner]
  | none => []

/-- The steps that blocks take. -/
def compileSteps (blocks : List Block) : List CompileStep :=
  let fields := blocks.flatMap Block.fields
  (ownFields fields).flatMap Field.compileSteps
    ++ (groupedFields fields).flatMap (groupSteps blocks)

end Formwork

namespace Formwork.Proofs

open Formwork

variable {validators : Ordered CustomValidator} {blocks : List Block}

end Formwork.Proofs
