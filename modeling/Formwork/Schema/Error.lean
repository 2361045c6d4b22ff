import Formwork.Number.Numeral
import Formwork.Text.Quoted

/-!
# Why a schema is not compiled

A rule that is malformed is reported with its field and kind. Besides, a parameter may be out of the
range that its rule can compute with, and a bound of a group out of the range of lengths.
-/

namespace Formwork

open Formwork.Text (quoted)

/-- What is wrong with a rule. The texts are parameters as they are displayed. -/
inductive RuleFault where
  | unknownKind
  | missingParameter
  | notAnInteger (shown : String)
  | negative
  | notANumber (shown : String)
  | undefinedNumber
  | notADate (shown : String)
  | malformedPattern
  | unknownValidator (name : String)
  deriving DecidableEq

def RuleFault.reason : RuleFault → String
  | .unknownKind => "unknown rule kind"
  | .missingParameter => "missing required parameter"
  | .notAnInteger shown => "parameter must be an integer, got " ++ shown
  | .negative => "parameter must not be negative"
  | .notANumber shown => "parameter must be a number, got " ++ shown
  | .undefinedNumber => "parameter must be a number"
  | .notADate shown => "parameter must be an ISO-8601 date, got " ++ shown
  | .malformedPattern => "invalid regular expression"
  | .unknownValidator name => "unknown custom validator '" ++ name ++ "'"

/-- What cannot be computed with. -/
inductive RangeFault where
  | infiniteInteger
  | integerTooLarge
  | tooManyTimes
  | numeralTooLong (digits : Nat)
  /-- The code of a character in a pattern. -/
  | codeTooLarge
  /-- An integer with too many digits to be shown. -/
  | integerTooLong
  /-- A pattern of ASCII characters that is also one of all characters. -/
  | mixedAlphabets
  /-- A number of instances that no list can have. -/
  | countTooLarge
  deriving DecidableEq

def RangeFault.message : RangeFault → String
  | .infiniteInteger => "cannot convert float infinity to integer"
  | .integerTooLarge => "int too large to convert to float"
  | .tooManyTimes => "the repetition number is too large"
  | .numeralTooLong digits => Numeral.tooLongMessage digits
  | .codeTooLarge => Numeral.noMachineIntegerMessage
  | .integerTooLong => Numeral.tooLongToShowMessage
  | .mixedAlphabets => "ASCII and UNICODE flags are incompatible"
  | .countTooLarge => ""

/-- Why a schema is not compiled. -/
inductive SchemaError where
  | malformed (fieldId kind : String) (fault : RuleFault)
  | outOfRange (fault : RangeFault)
  deriving DecidableEq

namespace SchemaError

/-- The name of a cause. -/
def name : SchemaError → String
  | .malformed .. => "SchemaCompileError"
  | .outOfRange (.numeralTooLong _) | .outOfRange .integerTooLong
  | .outOfRange .mixedAlphabets => "ValueError"
  | .outOfRange .countTooLarge => "SchemaError"
  | .outOfRange _ => "OverflowError"

/-- The message of a cause. -/
def message : SchemaError → String
  | .malformed fieldId kind fault =>
    "Invalid '" ++ kind ++ "' rule on field '" ++ fieldId ++ "': " ++ fault.reason
  | .outOfRange fault => fault.message

/-- A cause with its particulars, as a term. -/
def term? : SchemaError → Option String
  | .malformed fieldId kind _ =>
    some ("SchemaCompileError(field_id=" ++ quoted fieldId ++ ", kind=" ++ quoted kind ++ ")")
  | .outOfRange _ => none

end SchemaError

end Formwork
