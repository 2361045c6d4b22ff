import Formwork.Document.Form

/-!
# Instance suffixes

A sub-form may be used several times in one form. Each use has a suffix that tells its copies of
the ids apart: of blocks, of fields, of groups, and wherever a copy refers to another by its id. A
use inside a use puts its own suffix in front of the outer one.
-/

namespace Formwork

/-- A reference with a suffix; a reference that is missing or empty stays as it is. -/
def suffixReference (ref : Option String) (suffix : String) : Option String :=
  match nonEmpty? ref with
  | some r => some (r ++ suffix)
  | none => ref

def MenuItem.withSuffix (i : MenuItem) (suffix : String) : MenuItem :=
  { i with popinBlockId := i.popinBlockId ++ suffix }

def Button.withSuffix (b : Button) (suffix : String) : Button :=
  { b with
    popinBlockId := suffixReference b.popinBlockId suffix
    items := b.items.map fun items => items.map fun i => i.withSuffix suffix }

def Field.withSuffix (f : Field) (suffix : String) : Field :=
  { f with
    id := f.id ++ suffix
    repeatableGroupId := suffixReference f.repeatableGroupId suffix
    button := f.button.map fun b => b.withSuffix suffix }

namespace Block

/-- The copy of a block for the use with this suffix. The sub-form that it names keeps its id. -/
def withSuffix (b : Block) (suffix : String) : Block :=
  if suffix = "" then b
  else
    { b with
      id := b.id ++ suffix
      fields := b.fields.map fun f => f.withSuffix suffix
      repeatableBlockRef := suffixReference b.repeatableBlockRef suffix }

/-- The suffix that a block gives to the use of its sub-form. -/
def instanceSuffix (b : Block) : String :=
  match nonEmpty? b.subFormInstanceId with
  | some i => "_" ++ i
  | none => ""

/-- The sub-form that stands in the place of the block. Popins keep theirs. -/
def expansion? (b : Block) : Option String := if b.popin then none else b.subForm?

end Block

end Formwork
