import Formwork.Number.Numeral
import Formwork.Ordered

/-!
# Dynamic values

Form values, case contexts and payloads are trees of null, booleans, integers, doubles, texts,
lists and objects. Integers and doubles are different kinds of value, but compare as numbers:
`1` and `1.0` are the same. A boolean is the same as the number `0` or `1`; where a comparison must
keep booleans apart from numbers, it says so itself.

A value can hold integers of any size, but not every integer has a text: one with too many digits
is not shown, and nothing with such an integer in it is.
-/

namespace Formwork

/-- A dynamic value. The members of an object are in insertion order. -/
inductive Value where
  | null
  | bool (b : Bool)
  | int (n : Int)
  | float (x : Binary64)
  | str (s : String)
  | list (items : List Value)
  | object (members : List (String × Value))

/-- The members of an object. -/
abbrev Members := Ordered Value

namespace Value

instance : Inhabited Value := ⟨.null⟩

def isBool : Value → Bool
  | .bool _ => true
  | _ => false

def isNull : Value → Bool
  | .null => true
  | _ => false

/-- The number that a value stands for in a comparison. -/
def number? : Value → Option Dyadic
  | .bool b => some (if b then 1 else 0)
  | .int n => some (Dyadic.ofInt n)
  | .float x => x.value?
  | _ => none

/-- Sameness of values that are neither lists nor objects. -/
def sameScalar : Value → Value → Bool
  | .null, .null => true
  | .str a, .str b => a == b
  | .float x, .float y => x.same y
  | a, b =>
    match a.number?, b.number? with
    | some v, some w => v == w
    | _, _ => false

mutual

/--
Sameness of values: numbers by what they stand for, lists element by element, objects by their keys
whatever the order.
-/
def same : Value → Value → Bool
  | .list xs, .list ys => sameItems xs ys
  | .object xs, .object ys => xs.length == ys.length && sameMembers xs ys
  | .list _, _ => false
  | .object _, _ => false
  | a, b => sameScalar a b

/-- Element by element. -/
def sameItems : List Value → List Value → Bool
  | [], [] => true
  | x :: xs, y :: ys => same x y && sameItems xs ys
  | _, _ => false

/-- Every member on the left has a counterpart on the right. -/
def sameMembers : List (String × Value) → List (String × Value) → Bool
  | [], _ => true
  | (k, x) :: xs, ys =>
    (match ys.lookup k with
      | some y => same x y
      | none => false) && sameMembers xs ys

end

mutual

/-- Whether every integer in a value has few enough digits to be shown. -/
def isWritable : Value → Bool
  | .int n => Numeral.isWritable n
  | .list xs => allWritable xs
  | .object ms => membersWritable ms
  | _ => true

/-- Whether all items of a list are writable. -/
def allWritable : List Value → Bool
  | [] => true
  | x :: xs => x.isWritable && allWritable xs

/-- Whether all members of an object are writable. -/
def membersWritable : List (String × Value) → Bool
  | [] => true
  | (_, x) :: ms => x.isWritable && membersWritable ms

end

/-- The items of a list value. -/
def items? : Value → Option (List Value)
  | .list xs => some xs
  | _ => none

/-- The members of an object value. -/
def members? : Value → Option Members
  | .object ms => some ms
  | _ => none

/-- The text of a text value. -/
def text? : Value → Option String
  | .str s => some s
  | _ => none

/-- The number of an integer value. -/
def int? : Value → Option Int
  | .int n => some n
  | _ => none

end Value

end Formwork
