import Formwork.Context.Lookup
import Formwork.Document.Field

/-!
# Case contexts

The case context is what rule providers get to see: the values of the discriminant fields, beside
attributes that were given when the case was opened. Its values are scalars and lists, never
objects. Rules are asked for again only when the context has changed.
-/

namespace Formwork

/-- Whether a value can be a case attribute. -/
def Value.isCaseValue : Value → Bool
  | .object _ => false
  | _ => true

/-- The value of a field among form values: under its id as a key, else where its id leads as a
path. -/
def fieldValue? (values : Members) (id : String) : Except NumberFault (Option Value) :=
  match Ordered.get? values id with
  | some v => .ok (some v)
  | none => (Value.object values).walk (pathParts id)

namespace CaseContext

/-- The context at the opening of a case. -/
def ofPrefill (attributes : Members) : Members := attributes.filter fun (_, v) => v.isCaseValue

/-- The values of discriminants that are found among form values, in field order. -/
def found (values : Members) (discriminants : List Field) : Except NumberFault Members := do
  let entries ← discriminants.mapM fun d => do .ok (d.id, ← fieldValue? values d.id)
  .ok (entries.filterMap fun (id, v) => (v.filter Value.isCaseValue).map fun v => (id, v))

/-- The context with the current values of the discriminants. A discriminant that is not found keeps
its value. -/
def update (context values : Members) (discriminants : List Field) :
    Except NumberFault Members :=
  (found values discriminants).map (Ordered.insertAll context)

/-- Whether two values differ. A boolean differs from every number. -/
def differs (a b : Value) : Bool :=
  -- Values compare as numbers do, where true is one; a change of kind is a change here.
  if a.isBool || b.isBool then
    match a, b with
    | .bool x, .bool y => x != y
    | _, _ => true
  else !a.same b

/-- Whether two lists differ at some position or in length. -/
def itemsDiffer : List Value → List Value → Bool
  | [], [] => false
  | a :: as, b :: bs => differs a b || itemsDiffer as bs
  | _, _ => true

/-- Whether an attribute differs; a missing one differs from every value. -/
def attributeDiffers : Option Value → Option Value → Bool
  | none, none => false
  | some (.list as), some (.list bs) => itemsDiffer as bs
  | some a, some b => differs a b
  | _, _ => true

/-- Whether two contexts differ under one of these keys. -/
def differsAt (keys : List String) (old new : Members) : Bool :=
  keys.any fun k => attributeDiffers (Ordered.get? old k) (Ordered.get? new k)

/-- Whether two contexts differ. -/
def hasChanged (old new : Members) : Bool :=
  differsAt (Ordered.keys old ++ Ordered.keys new) old new

/-- The context after an edit, and whether the edit changed it. Only attributes that the edit wrote
can have changed. -/
def edit (context values : Members) (discriminants : List Field) :
    Except NumberFault (Members × Bool) :=
  (found values discriminants).map fun written =>
    let new := Ordered.insertAll context written
    (new, differsAt (Ordered.keys written) context new)

end CaseContext

end Formwork
