import Formwork.Document.FieldKind
import Formwork.Ordered
import Formwork.Text.Search

/-!
# Dotted paths

The parts of a dotted path lead through objects by key and through lists by position. A position is
written in digits of any script.
-/

namespace Formwork

open Formwork.Text

/-- The position that a part of a path names, if it consists of digits. -/
def position? (part : String) : Except NumberFault (Option Nat) :=
  if isDigits part.toList then
    match Numeral.readInt part with
    | .int n => .ok (some n.toNat)
    | .tooLong digits => .error (.integerTooLong digits)
    | .malformed => .error (.notAnInteger part)
  else .ok none

/-- The parts of a path. -/
def pathParts (path : String) : List String := splitChar '.' path

namespace Value

/-- One step along a path: into an object by key, into a list by position. -/
def step (v : Value) (part : String) : Except NumberFault (Option Value) :=
  match v with
  | .object ms => .ok (Ordered.get? ms part)
  | .list items => (position? part).map fun position => position.bind fun i => items[i]?
  | _ => .ok none

/-- The value that a path leads to. -/
def walk (v : Value) : List String → Except NumberFault (Option Value)
  | [] => .ok (some v)
  | part :: rest => do
    match ← v.step part with
    | some w => w.walk rest
    | none => .ok none

end Value

end Formwork
