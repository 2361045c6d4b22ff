import Formwork.Number.Numeral
import Formwork.Text.Quoted

/-!
# What can be wrong with a template

A template is refused while it is read (`SyntaxError`), or it is read but its printed form is no
well-formed block template (`FormFault`), or a call in it fails when it is evaluated (`CallFault`).
-/

namespace Formwork.Template

open Formwork.Text (quoted)

/-- Why a template cannot be read. The texts that a cause carries are those it reports. -/
inductive SyntaxError where
  /-- A quote that begins no complete string literal. -/
  | unexpectedCharacter (c : Char) (expression : String)
  | emptyExpression
  /-- Something follows a first term that names no helper. -/
  | unknownHelper (name expression : String)
  | unbalancedClose (expression : String)
  | missingClose (expression : String)
  | missingHelperName (expression : String)
  /-- An opening parenthesis is followed by something that names no helper. -/
  | unknownNestedHelper (name expression : String)
  | hashArgument (path : String)
  | aboveRoot (path : String)
  | emptyPath (path : String)
  | openerWithoutArgument (helper : String)
  | unknownBlock (helper : String)
  | unexpectedClosing (helper : String)
  | mismatchedClosing (helper opened : String)
  | elseOutsideBlock
  | unclosedBlock (helper : String)
  /-- A path segment of digit forms that are not all decimal digits. -/
  | notANumeral (segment : String)
  /-- A path segment with more digits than a numeral may have. -/
  | numeralTooLong (digits : Nat)
  deriving DecidableEq

namespace SyntaxError

/-- The text between two pairs of braces. -/
def braced (s : String) : String := "\x7b\x7b" ++ s ++ "\x7d\x7d"

/-- The message shown for a cause. -/
def message : SyntaxError → String
  | .unexpectedCharacter c e =>
    "Unexpected character " ++ quoted c.toString ++ " in expression " ++ quoted e
  | .emptyExpression => "Empty expression '" ++ braced "" ++ "'"
  | .unknownHelper n e => "Unknown helper " ++ quoted n ++ " in expression " ++ quoted e
  | .unbalancedClose e => "Unbalanced ')' in expression " ++ quoted e
  | .missingClose e => "Missing ')' in expression " ++ quoted e
  | .missingHelperName e => "Missing helper name in " ++ quoted e
  | .unknownNestedHelper n e =>
    "Unknown helper " ++ quoted n ++ " in sub-expression of " ++ quoted e
  | .hashArgument p => "Hash arguments are not supported: " ++ quoted p
  | .aboveRoot p => "Path " ++ quoted p ++ " walks above the root scope"
  | .emptyPath p => "Empty path " ++ quoted p
  | .openerWithoutArgument h => braced ("#" ++ h) ++ " requires an expression"
  | .unknownBlock h => "Unknown block helper '#" ++ h ++ "'"
  | .unexpectedClosing h => "Unexpected closing tag " ++ braced ("/" ++ h)
  | .mismatchedClosing h o =>
    "Closing tag " ++ braced ("/" ++ h) ++ " does not match open " ++ braced ("#" ++ o)
  | .elseOutsideBlock => braced "else" ++ " outside of a block helper"
  | .unclosedBlock h => "Unclosed block helper '#" ++ h ++ "'"
  | .notANumeral s => "invalid literal for int() with base 10: " ++ quoted s
  | .numeralTooLong n => Numeral.tooLongMessage n

end SyntaxError

/-- Why the printed form of a template is not well formed. -/
inductive FormFault where
  /-- A number literal with a leading zero, or with a digit where none may stand. -/
  | numberLiteral
  /-- A decimal number literal with digits of another script. -/
  | foreignDecimal
  /-- A number literal with more digits than a numeral may have. -/
  | numeralTooLong (digits : Nat)
  /-- A block with more than one `else`. -/
  | secondElse
  /-- A text that ends its own protection, and is not protected where it ends. -/
  | protectedText
  /-- A statement in a text that has ended its protection, or a mark with a sign at its end. What the
  block template makes of it is not described here, except for prints of values of the context. -/
  | foreignStatement
  deriving DecidableEq

/-- Why a call fails. -/
inductive CallFault where
  /-- The helper does not take that many arguments. -/
  | argumentCount
  /-- An integer is too large to be compared as a double. -/
  | numberOverflow
  /-- An integer has too many digits to be shown. -/
  | integerTooLong
  /-- A decimal number literal past the doubles is used for more than to be shown. -/
  | infiniteLiteral
  deriving DecidableEq

/-- Everything that can keep a template from being rendered. -/
inductive Failure where
  | malformed (e : SyntaxError)
  | illFormed (f : FormFault)
  | call (f : CallFault)
  deriving DecidableEq

end Formwork.Template
