import Formwork.Document.Form
import Formwork.Text.Search

/-!
# Fields and groups

The values of a form are those of its own fields, under their ids, and those of its groups, each a
list of instances. Buttons hold no value. A group has the fields that name it, wherever they stand,
and belongs to the first block that has one of them.
-/

namespace Formwork

/-- The fields that hold a value of their own, outside of groups. -/
def ownFields (fields : List Field) : List Field :=
  fields.filter fun f => !f.kind.isAction && f.group?.isNone

/-- The group whose values a field is part of. -/
def Field.memberOf? (f : Field) : Option String := if f.kind.isAction then none else f.group?

/-- The fields of each group, groups in the order of their first members. -/
def groupedFields (fields : List Field) : Ordered (List Field) :=
  fields.foldl (fun groups f =>
    match f.memberOf? with
    | some g => Ordered.push groups g f
    | none => groups) []

/-- The block that a group belongs to. -/
def groupOwner? (blocks : List Block) (group : String) : Option Block :=
  blocks.find? fun b => b.fields.any fun f => f.memberOf? == some group

/-- A member's id within its group. -/
def plainId (group id : String) : String :=
  (Text.stripPrefix? (group ++ ".") id).getD id

end Formwork
