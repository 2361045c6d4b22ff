import Formwork.Text.Blank
import Formwork.Text.Search

/-!
# Lexical rules

Before a template is read, rules edit its source from left to right:

* **comments** are removed, the long form up to its own end mark and the short form up to the first
  closing brace;
* **triple braces** become double ones, since nothing is escaped on output anyway;
* **white-space control** removes the blanks next to a tilde inside the braces;
* a **custom** rule replaces one text by another.

Rules run in the order of their priority, the built-in ones first among equals.
-/

namespace Formwork.Template

open Formwork.Text

/-- A rule that edits the source of a template. -/
inductive Rule where
  | stripComments
  | collapseTripleBraces
  | controlWhiteSpace
  | custom (priority : Int) (find replacement : String)
  deriving DecidableEq

/-- Replaces every match: `matchAt` gives what a match at the front is replaced by and what follows
it. Matches are not empty, so the length of the text bounds the steps. -/
def replaceMatches (matchAt : List Char → Option (List Char × List Char)) : List Char → List Char :=
  fun cs => go cs.length cs
where
  go : Nat → List Char → List Char
    | _, [] => []
    | 0, cs => cs
    | fuel + 1, c :: rest =>
      match matchAt (c :: rest) with
      | some (replacement, after) => replacement ++ go fuel after
      | none => c :: go fuel rest

namespace Rule

/-- A long comment at the front. -/
def longComment? (cs : List Char) : Option (List Char × List Char) := do
  let body ← "\x7b\x7b!--".toList.isPrefixOf? cs
  let (_, after) ← breakAt? "--\x7d\x7d".toList body
  some ([], after)

/-- A short comment at the front. -/
def shortComment? (cs : List Char) : Option (List Char × List Char) := do
  let body ← "\x7b\x7b!".toList.isPrefixOf? cs
  let after ← "\x7d\x7d".toList.isPrefixOf? (body.dropWhile (· != '\x7d'))
  some ([], after)

/-- An expression in triple braces at the front. -/
def tripleBraces? (cs : List Char) : Option (List Char × List Char) := do
  let body ← "\x7b\x7b\x7b".toList.isPrefixOf? cs
  let (inner, after) ← breakAt? "\x7d\x7d\x7d".toList body
  some ("\x7b\x7b".toList ++ inner ++ "\x7d\x7d".toList, after)

/-- Blanks and opening braces with a tilde at the front. -/
def openingTilde? (cs : List Char) : Option (List Char × List Char) := do
  let after ← "\x7b\x7b~".toList.isPrefixOf? (cs.dropWhile isBlank)
  some ("\x7b\x7b".toList, after)

/-- Closing braces with a tilde at the front, and the blanks after them. -/
def closingTilde? (cs : List Char) : Option (List Char × List Char) := do
  let after ← "~\x7d\x7d".toList.isPrefixOf? cs
  some ("\x7d\x7d".toList, after.dropWhile isBlank)

/-- Rules with a lower priority run earlier. -/
def priority : Rule → Int
  | .stripComments => 10
  | .collapseTripleBraces => 20
  | .controlWhiteSpace => 30
  | .custom priority _ _ => priority

/-- The name of a kind of rule. -/
def name : Rule → String
  | .stripComments => "CommentStripRule"
  | .collapseTripleBraces => "TripleStashRule"
  | .controlWhiteSpace => "WhitespaceControlRule"
  | .custom .. => "ReplaceRule"

/-- How a rule shows itself. -/
def label (r : Rule) : String := r.name ++ "(priority=" ++ toString r.priority ++ ")"

/-- What a rule does, in one line. -/
def description : Rule → String
  | .stripComments => "Strip \x7b\x7b! \x7d\x7d and \x7b\x7b!-- --\x7d\x7d comments"
  | .collapseTripleBraces => "Convert \x7b\x7b\x7bexpr\x7d\x7d\x7d to \x7b\x7bexpr\x7d\x7d"
  | .controlWhiteSpace => "Trim whitespace next to \x7b\x7b~ and ~\x7d\x7d"
  | .custom _ find replacement => find ++ " -> " ++ replacement

/-- Whether a rule has anything to do. -/
def applies (source : List Char) : Rule → Bool
  | .stripComments => occursIn "\x7b\x7b!".toList source
  | .collapseTripleBraces => occursIn "\x7b\x7b\x7b".toList source
  | .controlWhiteSpace =>
    occursIn "\x7b\x7b~".toList source || occursIn "~\x7d\x7d".toList source
  | .custom _ find _ => occursIn find.toList source

/-- The edited source. -/
def transform (source : List Char) : Rule → List Char
  | .stripComments => replaceMatches shortComment? (replaceMatches longComment? source)
  | .collapseTripleBraces => replaceMatches tripleBraces? source
  | .controlWhiteSpace => replaceMatches closingTilde? (replaceMatches openingTilde? source)
  | .custom _ find replacement => replaceAll find.toList replacement.toList source

/-- The source after one rule. -/
def apply (source : List Char) (r : Rule) : List Char :=
  if r.applies source then r.transform source else source

/-- The built-in rules. -/
def builtIn : List Rule := [.stripComments, .collapseTripleBraces, .controlWhiteSpace]

/-- The built-in rules and the custom ones, in the order in which they run. -/
def ordered (custom : List Rule) : List Rule :=
  (builtIn ++ custom).mergeSort fun a b => a.priority ≤ b.priority

/-- The source after all rules. -/
def applyAll (rules : List Rule) (source : String) : String :=
  String.ofList (rules.foldl apply source.toList)

end Rule

end Formwork.Template
