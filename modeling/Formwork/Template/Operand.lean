import Formwork.Json.Writer
import Formwork.Number.Numeral
import Formwork.Template.Helper
import Formwork.Template.Error
import Formwork.Text.Search

/-!
# Operands of template expressions

Evaluating an expression gives a value, or nothing when a path leads nowhere. String literals are
carried as UTF-16 units: a character beyond the basic plane is split into two halves there, and no
text of the context holds such a half, so a literal with such a character equals nothing but
another such literal.

* **Rendering** shows nothing for null, lower-case booleans, whole doubles without a fraction, the
  items of a list with commas between them, and objects as JSON. It fails on an integer with too
  many digits; the helper for JSON has a text of its own for what cannot be written.
* **Truth** has two forms. For helpers null, `false`, zero, NaN and the empty text are false and
  every list and object is true; for blocks an empty list is false as well. An integer too large
  for a double is neither.
* **Numbers** are compared as doubles; a text that is no real numeral counts as NaN.
* **Equality** never holds between a boolean and something else.
-/

namespace Formwork

open Formwork.Text

mutual

/-- A value as output, whatever the size of its integers. -/
def Value.output : Value → String
  | .null => ""
  | .bool b => if b then "true" else "false"
  | .int n => toString n
  | .float .nan => "NaN"
  | .float x =>
    match x.toInt? with
    | some n => toString n
    | none => x.text
  | .str s => s
  | .list items => ",".intercalate (Value.outputItems items)
  | .object ms => Json.text (.object ms)

/-- The items of a list as output. -/
def Value.outputItems : List Value → List String
  | [] => []
  | x :: xs => x.output :: Value.outputItems xs

end

/-- A value as output, if all its integers can be shown. -/
def Value.render (v : Value) : Except Template.CallFault String :=
  if v.isWritable then .ok v.output else .error .integerTooLong

/-- Equality of values at the top: a boolean equals only a boolean. -/
def Value.equal (a b : Value) : Bool := a.isBool == b.isBool && a.same b

namespace Template

/-- The double that an integer is compared as. -/
def doubleOf (n : Int) : Except CallFault Binary64 :=
  match Binary64.ofInt? n with
  | some x => .ok x
  | none => .error .numberOverflow

/-- Truth of a value, for helpers. -/
def truth : Value → Except CallFault Bool
  | .null => .ok false
  | .bool b => .ok b
  | .int 0 => .ok false
  | .int n => (doubleOf n).map fun _ => true
  | .float x => .ok (!x.isNaN && !x.same (.finite 0))
  | .str s => .ok (s != "")
  | _ => .ok true

/-- The outcome of evaluating an expression. -/
inductive Operand where
  | undefined
  | value (v : Value)
  /-- A literal with characters that travel as halves. -/
  | split (s : String)

namespace Operand

/-- Whether a character travels as two halves. -/
def isWide (c : Char) : Bool := 0xFFFF < c.toNat

/-- The operand of a string literal. -/
def ofLiteral (s : String) : Operand := if s.toList.any isWide then .split s else .value (.str s)

/-- The operand that an optional value makes. -/
def ofOption : Option Value → Operand
  | some v => .value v
  | none => .undefined

/-- The value of an operand, null for what is undefined. -/
def toValue : Operand → Value
  | .undefined => .null
  | .value v => v
  | .split s => .str s

/-- An operand as output. -/
def render (o : Operand) : Except CallFault String := o.toValue.render

/-- Truth of an operand, for helpers. -/
def isTruthy (o : Operand) : Except CallFault Bool := truth o.toValue

/-- Truth of the condition of a block. -/
def isBlockTruthy (o : Operand) : Except CallFault Bool :=
  match o.toValue with
  | .list items => .ok !items.isEmpty
  | v => truth v

/-- The double that an operand is compared as. -/
def number (o : Operand) : Except CallFault Binary64 :=
  match o.toValue with
  | .bool b => .ok (.finite (if b then 1 else 0))
  | .int n => doubleOf n
  | .float x => .ok x
  | .str s => .ok ((Numeral.real? (trimmed s)).getD .nan)
  | _ => .ok .nan

/-- Equality of operands: a split literal equals only itself, and what is undefined equals null. -/
def equal : Operand → Operand → Bool
  | .split a, .split b => a == b
  | .split _, _ => false
  | _, .split _ => false
  | a, b => a.toValue.equal b.toValue

/-- The units of the rendered operand: those of a split literal, whole characters otherwise. -/
def renderedUnits : Operand → Except CallFault (List Nat)
  | .split s => .ok (s.toList.flatMap Json.units)
  | o => o.render.map fun s => s.toList.map Char.toNat

/-- Whether a list holds an equal item, or a text the rendered operand. -/
def contains (collection item : Operand) : Except CallFault Bool :=
  match collection with
  | .value (.list xs) => .ok (xs.any fun x => equal (.value x) item)
  | .value (.str s) => item.renderedUnits.map fun needle => occursIn needle (s.toList.map Char.toNat)
  | .split s => item.renderedUnits.map fun needle => occursIn needle (s.toList.flatMap Json.units)
  | _ => .ok false

/-- Whether there is nothing: null, an empty text, list or object. -/
def isEmpty (o : Operand) : Bool :=
  match o.toValue with
  | .null => true
  | .str s => s.isEmpty
  | .list items => items.isEmpty
  | .object ms => ms.isEmpty
  | _ => false

/-- An operand as JSON. The fallback, if it is a text, stands for null and for what has no JSON text;
without one there is an empty list or object in the place of the latter. -/
def json (o fallback : Operand) : String :=
  match o.toValue, fallback.toValue with
  | .null, .str s => s
  | v, .str s => (Json.write? v).getD s
  | .list items, _ => (Json.write? (.list items)).getD "[]"
  | v, _ => (Json.write? v).getD "\x7b\x7d"

/-- The items that a block goes through: those of a list, the values of an object. -/
def items (o : Operand) : List Value :=
  match o.toValue with
  | .list xs => xs
  | .object ms => ms.map (·.2)
  | _ => []

/-- A comparison of two operands as numbers. The first is converted first. -/
def compareBy (test : Binary64 → Binary64 → Bool) (a b : Operand) : Except CallFault Operand := do
  let x ← a.number
  let y ← b.number
  .ok (.value (.bool (test x y)))

end Operand

/-- Calls a helper. -/
def Helper.call (h : Helper) (args : List Operand) : Except CallFault Operand :=
  let bool (b : Bool) : Except CallFault Operand := .ok (.value (.bool b))
  match h, args with
  | .eq, [a, b] => bool (a.equal b)
  | .ne, [a, b] => bool (!a.equal b)
  | .gt, [a, b] => Operand.compareBy (fun x y => y.lt x) a b
  | .lt, [a, b] => Operand.compareBy (fun x y => x.lt y) a b
  | .gte, [a, b] => Operand.compareBy (fun x y => y.le x) a b
  | .lte, [a, b] => Operand.compareBy (fun x y => x.le y) a b
  | .and, args => do bool ((← args.mapM Operand.isTruthy).all id)
  | .or, args => do bool ((← args.mapM Operand.isTruthy).any id)
  | .not, [] => bool true
  | .not, [a] => do bool !(← a.isTruthy)
  | .contains, [a, b] => do bool (← a.contains b)
  | .isEmpty, [] => bool true
  | .isEmpty, [a] => bool a.isEmpty
  | .json, [] => .ok (.value (.str "null"))
  | .json, [a] => .ok (.value (.str (a.json .undefined)))
  | .json, [a, fallback] => .ok (.value (.str (a.json fallback)))
  | _, _ => .error .argumentCount

end Template

end Formwork
