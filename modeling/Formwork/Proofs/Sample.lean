import Formwork.Document.Form

/-!
# Plain fields and blocks

The parts that examples are built from.
-/

namespace Formwork.Proofs

open Formwork

/-- A text field that is nothing else. -/
def textField (id : String) : Field where
  id := id
  kind := .text
  label := ""
  description := none
  default := .undeclared
  items := none
  dataSource := none
  validation := []
  isDiscriminant := false
  status := none
  button := none
  repeatableGroupId := none

/-- A block that holds fields and stands for nothing else. -/
def fieldBlock (id : String) (fields : List Field) : Block where
  id := id
  title := ""
  description := none
  fields := fields
  status := none
  subFormRef := none
  subFormInstanceId := none
  popin := false
  popinLoad := none
  popinSubmit := none
  repeatable := false
  minInstances := none
  maxInstances := none
  repeatableBlockRef := none
  templateOnly := false

/-- A text field that belongs to a group. -/
def groupField (id group : String) : Field := { textField id with repeatableGroupId := some group }

/-- A block without fields that opens over the others. -/
def popinBlock (id : String) : Block := { fieldBlock id [] with popin := true }

/-- A repeatable block that takes over a template, behind fields of its own. -/
def rowsOf (id template : String) (fields : List Field) : Block :=
  { fieldBlock id fields with repeatable := true, repeatableBlockRef := some template }

end Formwork.Proofs
