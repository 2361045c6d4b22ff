import Formwork.Value

/-!
# What an authored document holds

A document that has been parsed, but not yet read as a form, is a tree of scalars, sequences and
mappings. The keys of a mapping may be anything, and a few scalars, such as dates, are none that a
form can use; of those only the name of their type is kept.
-/

namespace Formwork

/-- A node of an authored document. -/
inductive Datum where
  | null
  | bool (b : Bool)
  | int (n : Int)
  | real (x : Binary64)
  | text (s : String)
  | sequence (items : List Datum)
  | mapping (entries : List (Datum × Datum))
  /-- A scalar or collection that no form can use, with the name of its type. -/
  | foreign (typeName : String)

namespace Datum

instance : Inhabited Datum := ⟨.null⟩

/-- The name of the type of a node, as it is reported to authors. -/
def typeName : Datum → String
  | .null => "NoneType"
  | .bool _ => "bool"
  | .int _ => "int"
  | .real _ => "float"
  | .text _ => "str"
  | .sequence _ => "list"
  | .mapping _ => "dict"
  | .foreign name => name

mutual

/-- A dynamic value as a document. -/
def ofValue : Value → Datum
  | .null => .null
  | .bool b => .bool b
  | .int n => .int n
  | .float x => .real x
  | .str s => .text s
  | .list items => .sequence (ofItems items)
  | .object ms => .mapping (ofMembers ms)

/-- The items of a list as documents. -/
def ofItems : List Value → List Datum
  | [] => []
  | x :: xs => ofValue x :: ofItems xs

/-- The members of an object as entries. -/
def ofMembers : List (String × Value) → List (Datum × Datum)
  | [] => []
  | (k, x) :: ms => (.text k, ofValue x) :: ofMembers ms

end

/-- The node under a text key. -/
def lookup? (entries : List (Datum × Datum)) (key : String) : Option Datum :=
  entries.findSome? fun (k, v) =>
    match k with
    | .text s => if s == key then some v else none
    | _ => none

end Datum

end Formwork
