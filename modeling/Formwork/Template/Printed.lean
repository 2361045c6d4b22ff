import Formwork.Template.Tag

/-!
# The printed form of a template

A template is printed as a block template with `{{ }}` around values and `{% %}` around statements.
A literal text that holds any of these marks is protected by a raw block. Each `each` block binds
the current item to a variable of its own level and the loop position to another one.
-/

namespace Formwork.Template

open Formwork.Text

/-- The marks of block templates. -/
def marks : List String :=
  ["\x7b%", "%\x7d", "\x7b#", "#\x7d", "\x7b\x7b", "\x7d\x7d"]

/-- Whether a literal text must be protected. -/
def needsProtection (s : String) : Bool := marks.any fun m => contains m s

/-- A statement between its marks. -/
def statement (s : String) : String := "\x7b% " ++ s ++ " %\x7d"

namespace Tag

/-- The printed form of a tag. -/
def print : Tag → String
  | .text s =>
    if needsProtection s then statement "raw" ++ s ++ statement "endraw" else s
  | .output e => "\x7b\x7b " ++ e.print ++ " \x7d\x7d"
  | .openIf false e => statement ("if hb_truthy(" ++ e.print ++ ")")
  | .openIf true e => statement ("if not hb_truthy(" ++ e.print ++ ")")
  | .openEach level e =>
    statement ("for " ++ itemVariable level ++ " in hb_iter(" ++ e.print ++ ")") ++
      statement ("set " ++ itemVariable level ++ "_loop = loop")
  | .otherwise => statement "else"
  | .closeIf => statement "endif"
  | .closeEach => statement "endfor"

/-- The printed form of a template. -/
def printAll (tags : List Tag) : String := String.join (tags.map print)

end Tag

end Formwork.Template
