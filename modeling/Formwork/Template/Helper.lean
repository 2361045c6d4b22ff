/-!
# Template helpers

The twelve functions that an expression may call, with the numbers of arguments they take. Calling
one with another number of arguments is a fault of the call, not of the template: it only shows
when the call is evaluated.
-/

namespace Formwork.Template

/-- The functions an expression may call. -/
inductive Helper where
  | eq | ne | gt | lt | gte | lte | and | or | not | contains | isEmpty | json
  deriving DecidableEq, Repr

namespace Helper

/-- Every helper. -/
def all : List Helper :=
  [.eq, .ne, .gt, .lt, .gte, .lte, .and, .or, .not, .contains, .isEmpty, .json]

/-- The word that names a helper in an expression. -/
def name : Helper → String
  | .eq => "eq"
  | .ne => "ne"
  | .gt => "gt"
  | .lt => "lt"
  | .gte => "gte"
  | .lte => "lte"
  | .and => "and"
  | .or => "or"
  | .not => "not"
  | .contains => "contains"
  | .isEmpty => "isEmpty"
  | .json => "json"

/-- The helper that a word names. -/
def ofName? (word : String) : Option Helper := all.find? fun h => h.name == word

/-- Whether a helper takes this many arguments. -/
def takes (h : Helper) (count : Nat) : Bool :=
  match h with
  | .and | .or => true
  | .not | .isEmpty => count ≤ 1
  | .json => count ≤ 2
  | _ => count == 2

theorem ofName?_name (h : Helper) : ofName? h.name = some h := by cases h <;> decide

end Helper

end Formwork.Template
