import Formwork.Document.Grouping

/-!
# What templates see

A template outside of groups sees the case attributes and the form values side by side, where a form
value hides an attribute of its name, and both again as wholes. Within an instance of a group it
sees besides the group's instances, the values of its own instance under their plain ids, and the
instance's position.
-/

namespace Formwork.Scope

/-- The scope of a form. -/
def form (values context : Members) : Members :=
  Ordered.insertAll (Ordered.insertAll (Ordered.ofList context) values)
    [("formData", .object values), ("caseContext", .object context)]

/-- The values of an instance under plain ids. -/
def plainValues (group : String) (members : Members) : Members :=
  members.map fun (id, v) => (plainId group id, v)

/-- The scope within an instance of a group. -/
def ofInstance (outer : Members) (group : String) (index : Int) (instances : List Value) :
    Members :=
  let current := if index < 0 then none else instances[index.toNat]?
  let members := (current.bind Value.members?).getD []
  Ordered.insertAll outer
    ([(group, .list instances)] ++ plainValues group members ++
      [("@index", .int index), ("@first", .bool (index == 0)),
        ("@last", .bool (index == instances.length - 1))])

end Formwork.Scope
