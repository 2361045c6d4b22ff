import Formwork.Schema.GroupSchema

/-!
# Schemas

The schema of a form has a schema for each of its own fields and for each of its groups. Popins,
templates and buttons are no part of it. Fields are validated one by one and independently, a
missing value as null.
-/

namespace Formwork

/-- The schema of a form or block. -/
structure Schema where
  fields : Ordered FieldSchema
  groups : Ordered GroupSchema

namespace Schema

/-- Compiles the schema of blocks. -/
def ofBlocks (validators : Ordered CustomValidator) (blocks : List Block) :
    Except SchemaError Schema := do
  let fields := blocks.flatMap Block.fields
  let own ← (ownFields fields).mapM fun f => do .ok (f.id, ← f.compile validators)
  let groups ← (groupedFields fields).filterMapM fun (g, members) =>
    match groupOwner? blocks g with
    | some owner => (compileGroup validators owner g members).map fun s => some (g, s)
    | none => .ok none
  .ok ⟨Ordered.ofList own, groups⟩

/-- What is wrong with the value of a field. -/
def fieldIssues (path : String) (s : FieldSchema) (v : Value) : Except RangeFault (List Issue) :=
  (s.validate v).map fun
    | .ok _ => []
    | .error r => [⟨path, r.message, r.code⟩]

/-- What is wrong with form values. -/
def validate (s : Schema) (values : Members) : Except RangeFault (List Issue) := do
  let value (key : String) := (Ordered.get? values key).getD .null
  let own ← s.fields.mapM fun (path, f) => fieldIssues path f (value path)
  let grouped ← s.groups.mapM fun (id, g) => g.issues (value id)
  .ok (own.flatten ++ grouped.flatten)

/-- A field or group that a schema does not have, and those that it has. -/
structure Absent where
  noun : String
  id : String
  available : List String
  deriving DecidableEq

/-- The message of what is absent. -/
def Absent.message (a : Absent) : String :=
  "No " ++ a.noun ++ " '" ++ a.id ++ "' in schema. Available: " ++
    Text.quotedList (a.available.mergeSort fun a b => a ≤ b)

/-- What a map of the schema has under an id. -/
def find {α : Type} (noun : String) (m : Ordered α) (id : String) : Except Absent α :=
  match Ordered.get? m id with
  | some a => .ok a
  | none => .error ⟨noun, id, Ordered.keys m⟩

/-- The schema of a field. -/
def field (s : Schema) (id : String) : Except Absent FieldSchema := find "field" s.fields id

/-- The schema of a group. -/
def group (s : Schema) (id : String) : Except Absent GroupSchema := find "group" s.groups id

/-- A summary of the schema. -/
def describe (s : Schema) : Value :=
  .object [("fields", .object (s.fields.map fun (k, f) => (k, f.describe))),
    ("groups", .object (s.groups.map fun (k, g) => (k, g.describe)))]

end Schema

/-- Compiles the schema of the rendered part of a form. -/
def Form.compile (validators : Ordered CustomValidator) (f : Form) : Except SchemaError Schema :=
  Schema.ofBlocks validators f.renderBlocks

/-- Compiles the schema of one block. -/
def Block.compile (validators : Ordered CustomValidator) (b : Block) : Except SchemaError Schema :=
  Schema.ofBlocks validators [b]

end Formwork
