import Formwork.Number.Shortest
import Formwork.Text.Quoted
import Formwork.Value

/-!
# Values as they are displayed

Where a rule asks for the length or the form of a value that is no text, it looks at the value as it
is displayed: words for null and the booleans, numbers as they are written, lists and objects in
brackets with their texts quoted. A value that is not writable cannot be displayed.
-/

namespace Formwork.Value

open Formwork.Text (quoted)

mutual

/-- A value within another, with texts quoted. -/
def displayInner : Value → String
  | .null => "None"
  | .bool b => if b then "True" else "False"
  | .int n => toString n
  | .float x => x.text
  | .str s => quoted s
  | .list items => "[" ++ ", ".intercalate (displayItems items) ++ "]"
  | .object ms => "\x7b" ++ ", ".intercalate (displayMembers ms) ++ "\x7d"

/-- The items of a list. -/
def displayItems : List Value → List String
  | [] => []
  | x :: xs => displayInner x :: displayItems xs

/-- The members of an object. -/
def displayMembers : List (String × Value) → List String
  | [] => []
  | (k, x) :: ms => (quoted k ++ ": " ++ displayInner x) :: displayMembers ms

end

/-- A value as it is displayed. -/
def display : Value → String
  | .str s => s
  | v => v.displayInner

/-- A value as it is displayed, if it can be. -/
def display? (v : Value) : Option String := if v.isWritable then some v.display else none

end Formwork.Value
