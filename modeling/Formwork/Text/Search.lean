/-!
# Finding and replacing

Search for a list inside a list, leftmost occurrence first. Replacement and splitting go from left
to right and never look at the same element twice.
-/

namespace Formwork.Text

variable {α : Type _} [BEq α]

/-- What stands before and after the leftmost occurrence of `needle`. -/
def breakAt? (needle : List α) : List α → Option (List α × List α)
  | [] => if needle.isEmpty then some ([], []) else none
  | x :: rest =>
    match needle.isPrefixOf? (x :: rest) with
    | some after => some ([], after)
    | none => (breakAt? needle rest).map fun (before, after) => (x :: before, after)

/-- Whether `needle` occurs. -/
def occursIn (needle hay : List α) : Bool := (breakAt? needle hay).isSome

/-- The parts between the occurrences of `needle`. An empty one occurs before, between and after
the elements. -/
def splitBy (needle hay : List α) : List (List α) :=
  if needle.isEmpty then [] :: hay.map ([·]) ++ [[]] else go hay.length hay
where
  /-- Each occurrence is at least one element long, so the length of the text bounds the steps. -/
  go : Nat → List α → List (List α)
    | 0, hay => [hay]
    | fuel + 1, hay =>
      match breakAt? needle hay with
      | some (before, after) => before :: go fuel after
      | none => [hay]

/-- Every occurrence of `needle` replaced. -/
def replaceAll (needle replacement hay : List α) : List α :=
  replacement.intercalate (splitBy needle hay)

/-- Whether a string occurs in another. -/
def contains (needle hay : String) : Bool := occursIn needle.toList hay.toList

/-- Every occurrence of a string replaced by another. -/
def replace (needle replacement hay : String) : String :=
  String.ofList (replaceAll needle.toList replacement.toList hay.toList)

/-- The parts of a string between the occurrences of a character. -/
def splitChar (c : Char) (s : String) : List String := (s.toList.splitOn c).map String.ofList

/-- A string without a leading part, when it starts with it. -/
def stripPrefix? (start s : String) : Option String :=
  (start.toList.isPrefixOf? s.toList).map String.ofList

/-- Whether a string ends with another. -/
def endsWith (ending s : String) : Bool := ending.toList.isSuffixOf s.toList

end Formwork.Text
