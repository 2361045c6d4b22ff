import Formwork.Schema.Rule

/-!
# Field schemas

The schema of a field is a chain: the value is brought to the form of its kind, its type is checked,
and then every rule in the order of the document. The first failure is the only one that is
reported. A number that is not read, or not shown to a rule, is a failure as well.
-/

namespace Formwork

/-- Why a value is rejected. -/
structure Rejection where
  code : String
  message : String
  deriving DecidableEq

/-- The rejection of a value for what is wrong with a number in it. -/
def Rejection.ofNumber (message : String) : Rejection :=
  ⟨"value_error", "Value error, " ++ message⟩

/-- The schema of a field. -/
structure FieldSchema where
  id : String
  kind : FieldKind
  rules : List Rule

/-- What is wrong with the type of a value. Null is of every type. -/
def FieldKind.typeFault? (k : FieldKind) (v : Value) : Option Rejection :=
  match k, v with
  | _, .null => none
  | .number, .int _ => none
  | .number, .float _ => none
  | .number, _ => some ⟨"number_type", "Must be a number"⟩
  | .checkbox, .bool _ => none
  | .checkbox, _ => some ⟨"bool_type", "Must be true or false"⟩
  | _, .str _ => none
  | _, .list _ => none
  | k, _ => if k.isTextLike then some ⟨"string_type", "Must be text"⟩ else none

/-- What a rule has to say against a value. -/
def Rule.rejection? (kind : FieldKind) (v : Value) (r : Rule) :
    Except RangeFault (Option Rejection) :=
  match r.check.passes kind v with
  | .ok true => .ok none
  | .ok false => .ok (some ⟨r.kind.name, r.message⟩)
  | .error .integerTooLong => .ok (some (.ofNumber RangeFault.integerTooLong.message))
  | .error f => .error f

namespace FieldSchema

/-- What the first of the rules that a value does not pass has to say. -/
def failure? (kind : FieldKind) (v : Value) : List Rule → Except RangeFault (Option Rejection)
  | [] => .ok none
  | r :: rest => do
    match ← r.rejection? kind v with
    | some j => .ok (some j)
    | none => failure? kind v rest

/-- The value that the chain gives, or why it rejects the value. -/
def validate (s : FieldSchema) (v : Value) : Except RangeFault (Except Rejection Value) :=
  match s.kind.coerceInput v with
  | .error f => .ok (.error (.ofNumber f.message))
  | .ok v =>
    match s.kind.typeFault? v with
    | some r => .ok (.error r)
    | none => do
      match ← failure? s.kind v s.rules with
      | some j => .ok (.error j)
      | none => .ok (.ok v)

/-- A summary of the schema. -/
def describe (s : FieldSchema) : Value :=
  .object [("type", .str s.kind.baseType), ("fieldType", .str s.kind.name),
    ("rules", .list (s.rules.map fun r => .str r.kind.name))]

end FieldSchema

/-- Compiles the schema of a field. -/
def Field.compile (validators : Ordered CustomValidator) (f : Field) :
    Except SchemaError FieldSchema := do
  let rules ← f.validation.mapM (ValidationRule.compile validators f.id)
  .ok ⟨f.id, f.kind, rules⟩

end Formwork
