import Formwork.Number.Binary64
import Formwork.Text.Digit

/-!
# Reading numerals

Numerals are written in the decimal digits of any script, with single underscores between digits,
blanks around them and a sign in front.

* An **integer numeral** has digits only, at most 4300 of them.
* A **real numeral** may have a point and an exponent; `inf`, `infinity` and `nan` are read in any
  case.
-/

namespace Formwork.Numeral

open Formwork.Text

/-- The most digits an integer numeral may have. -/
def maxDigits : Nat := 4300

/-- Why a numeral with too many digits has no value. -/
def tooLongMessage (digits : Nat) : String :=
  "Exceeds the limit (" ++ toString maxDigits ++
    " digits) for integer string conversion: value has " ++ toString digits ++
    " digits; use sys.set_int_max_str_digits() to increase the limit"

/-- Why an integer with too many digits is not shown. -/
def tooLongToShowMessage : String :=
  "Exceeds the limit (" ++ toString maxDigits ++
    " digits) for integer string conversion; use sys.set_int_max_str_digits() to increase the limit"

/-- Whether an integer has few enough digits to be shown. -/
def isWritable (n : Int) : Bool := (Nat.toDigits 10 n.natAbs).length ≤ maxDigits

/-- The least number that is no machine integer. -/
def machineLimit : Nat := Nat.pow 2 31

/-- Why a number is not the code of a character. -/
def noMachineIntegerMessage : String := "Python int too large to convert to C int"

/-- A sign, and the text after it. -/
def splitSign : List Char → Bool × List Char
  | '-' :: rest => (true, rest)
  | '+' :: rest => (false, rest)
  | cs => (false, cs)

/--
The digits at the front of a text and the rest. A single underscore between two digits is left out;
any other underscore ends the run. `afterDigit` tells whether a digit stands just before.
-/
def digitRunAfter (afterDigit : Bool) : List Char → List Nat × List Char
  | [] => ([], [])
  | c :: rest =>
    match digitValue? c with
    | some d =>
      let (ds, after) := digitRunAfter true rest
      (d :: ds, after)
    | none =>
      if c == '_' && afterDigit && rest.head?.any isDecimal then digitRunAfter false rest
      else ([], c :: rest)

/-- The digits at the front of a text and the rest. -/
def digitRun (cs : List Char) : List Nat × List Char := digitRunAfter false cs

/-- The natural number with these decimal digits. -/
def ofDigits (ds : List Nat) : Nat := ds.foldl (fun n d => 10 * n + d) 0

/-- What an integer numeral can be. -/
inductive IntReading where
  | int (n : Int)
  /-- More digits than an integer numeral may have. -/
  | tooLong (digits : Nat)
  | malformed
  deriving DecidableEq

/-- Reads an integer numeral. -/
def readInt (s : String) : IntReading :=
  let (negative, body) := splitSign (trimBy isNumeralBlank s.toList)
  match digitRun body with
  | ([], _) => .malformed
  | (ds, []) =>
    if maxDigits < ds.length then .tooLong ds.length
    else .int (if negative then -(ofDigits ds : Int) else ofDigits ds)
  | (_, _ :: _) => .malformed

/-- The integer a numeral stands for. -/
def int? (s : String) : Option Int :=
  match readInt s with
  | .int n => some n
  | _ => none

/-- An exponent part: its value and the rest of the text. -/
def exponentPart : List Char → Option (Int × List Char)
  | c :: rest =>
    if c == 'e' || c == 'E' then
      let (negative, body) := splitSign rest
      match digitRun body with
      | ([], _) => none
      | (ds, after) => some (if negative then -(ofDigits ds : Int) else ofDigits ds, after)
    else some (0, c :: rest)
  | [] => some (0, [])

/-- A real numeral without its sign. -/
def magnitude? (negative : Bool) (body : List Char) : Option Binary64 :=
  let word := String.ofList (body.map Char.toLower)
  if word == "inf" || word == "infinity" then some (.infinity negative)
  else if word == "nan" then some .nan
  else
    let (whole, afterWhole) := digitRun body
    let (fraction, afterFraction) := match afterWhole with
      | '.' :: rest => digitRun rest
      | rest => ([], rest)
    if whole.isEmpty && fraction.isEmpty then none
    else match exponentPart afterFraction with
      | some (exponent, []) =>
        some (Binary64.ofDecimal negative (ofDigits (whole ++ fraction))
          (exponent - fraction.length))
      | _ => none

/-- Reads a real numeral. -/
def real? (s : String) : Option Binary64 :=
  let (negative, body) := splitSign (trimBy isNumeralBlank s.toList)
  magnitude? negative body

end Formwork.Numeral
