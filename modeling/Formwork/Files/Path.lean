import Formwork.Text.Search

/-!
# Paths

A path is a list of names, from the root or from where one is. Names are separated by slashes; empty
names and single dots say nothing and are left out. Two dots lead up.
-/

namespace Formwork

/-- A path. -/
structure Path where
  rooted : Bool
  names : List String
  deriving DecidableEq

namespace Path

/-- The name that leads up. -/
def up : String := ".."

/-- Whether a part of a written path says nothing. -/
def isIdle (part : String) : Bool := part == "" || part == "."

/-- Reads a written path. -/
def ofText (s : String) : Path :=
  ⟨s.toList.head? == some '/', (Text.splitChar '/' s).filter fun part => !isIdle part⟩

/-- The path as it is written. -/
def text (p : Path) : String :=
  if p.rooted then "/" ++ "/".intercalate p.names
  else if p.names.isEmpty then "."
  else "/".intercalate p.names

/-- The path to something below. -/
def append (p : Path) (names : List String) : Path := { p with names := p.names ++ names }

/-- One name further: two dots take back the last name. -/
def follow (names : List String) (name : String) : List String :=
  if name == up then names.dropLast else names ++ [name]

/-- A file's name without its ending: what stands before the last dot, unless the name starts or
ends with that dot. -/
def stem (name : String) : String :=
  let backwards := name.toList.reverse
  match backwards.takeWhile (· != '.'), backwards.dropWhile (· != '.') with
  | _ :: _, _ :: last :: before => String.ofList (last :: before).reverse
  | _, _ => name

end Path

end Formwork
