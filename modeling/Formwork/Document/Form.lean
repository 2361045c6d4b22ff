import Formwork.Document.Field

/-!
# Blocks, forms and sub-forms

A form is a list of blocks with distinct ids, each a titled list of fields.

* A block that names a sub-form stands for the blocks of that sub-form.
* A block that names another block as its template takes over that block's fields; a repeatable one
  takes them as members of groups.
* A popin is only opened by buttons, and a block that has served as a template is kept as one;
  neither is part of the rendered form.
-/

namespace Formwork

/-- Data that is loaded when a popin opens. -/
structure PopinLoad where
  url : String
  dataSourceId : Option String
  auth : Option Auth
  deriving DecidableEq

/-- The methods of remote calls. -/
inductive Method where
  | get | post | put | patch
  deriving DecidableEq

def Method.name : Method → String
  | .get => "GET"
  | .post => "POST"
  | .put => "PUT"
  | .patch => "PATCH"

/-- The call that a popin makes when it is validated. -/
structure PopinSubmit where
  url : String
  method : Method
  payloadTemplate : Option String
  auth : Option Auth
  deriving DecidableEq

/-- A block. -/
structure Block where
  id : String
  title : String
  description : Option String
  fields : List Field
  status : Option Status
  subFormRef : Option String
  subFormInstanceId : Option String
  popin : Bool
  popinLoad : Option PopinLoad
  popinSubmit : Option PopinSubmit
  repeatable : Bool
  minInstances : Option Nat
  maxInstances : Option Nat
  repeatableBlockRef : Option String
  templateOnly : Bool
  deriving DecidableEq

namespace Block

/-- The sub-form that the block names. -/
def subForm? (b : Block) : Option String := nonEmpty? b.subFormRef

/-- The template block that the block names. -/
def template? (b : Block) : Option String := nonEmpty? b.repeatableBlockRef

/-- Whether the block is part of the rendered form. -/
def isRendered (b : Block) : Bool := !b.popin && !b.templateOnly

/-- Whether the block still stands for something else. -/
def isUnresolved (b : Block) : Bool :=
  (b.subForm?.isSome || b.template?.isSome) && !b.popin

/-- Whether the block names both a sub-form and a template. -/
def isConflicting (b : Block) : Bool := b.subForm?.isSome && b.template?.isSome

end Block

/-- Where a form is submitted. -/
structure Submission where
  url : String
  method : Method
  payloadTemplate : Option String
  headers : Option (Ordered String)
  auth : Option Auth
  deriving DecidableEq

/-- A form. -/
structure Form where
  id : Option String
  title : Option String
  version : String
  blocks : List Block
  submission : Option Submission
  deriving DecidableEq

namespace Form

/-- All fields of all blocks, in document order. -/
def fields (f : Form) : List Field := f.blocks.flatMap Block.fields

/-- The block with this id. -/
def block? (f : Form) (id : String) : Option Block := f.blocks.find? (·.id == id)

/-- The blocks of the rendered form, in order. -/
def renderBlocks (f : Form) : List Block := f.blocks.filter Block.isRendered

/-- The blocks that only buttons open. -/
def popins (f : Form) : List Block := f.blocks.filter Block.popin

/-- The fields whose values decide which rules apply. -/
def discriminants (f : Form) : List Field := f.fields.filter Field.isDiscriminant

/-- Whether some block still stands for something else. -/
def hasUnresolved (f : Form) : Bool := f.blocks.any Block.isUnresolved

end Form

/-- A reusable list of blocks. -/
structure SubForm where
  id : String
  title : String
  version : String
  blocks : List Block
  submission : Option Submission
  deriving DecidableEq

end Formwork
