import Formwork.Number.Numeral
import Formwork.Text.CaseMap
import Formwork.Text.Quoted
import Formwork.Value

/-!
# Field kinds

A field is of one of nine kinds. The kind says which value a field starts with, how an entered
value is brought to the form that the rules look at, and how the output of a default template
becomes a value. Buttons trigger behaviour and hold no value.
-/

namespace Formwork

open Formwork.Text

/-- The kinds of fields. -/
inductive FieldKind where
  | text | dropdown | autocomplete | radio | checkbox | date | file | number | button
  deriving DecidableEq, Repr

/-- Why a text that has the form of a number has no value. -/
inductive NumberFault where
  | notAnInteger (text : String)
  | notAReal (text : String)
  | integerTooLong (digits : Nat)
  deriving DecidableEq

/-- The message of a number fault. -/
def NumberFault.message : NumberFault → String
  | .notAnInteger s => "invalid literal for int() with base 10: " ++ quotedShortly s
  | .notAReal s => "could not convert string to float: " ++ quoted s
  | .integerTooLong digits => Numeral.tooLongMessage digits

/-! ## Numeric texts -/

namespace NumericText

/-- A text without the minus sign in front. -/
def dropMinus : List Char → List Char
  | '-' :: rest => rest
  | cs => cs

/-- Nothing, or an exponent mark, a sign if any and digits. -/
def isExponent : List Char → Bool
  | [] => true
  | e :: rest =>
    let digits := match rest with
      | '-' :: ds => ds
      | '+' :: ds => ds
      | ds => ds
    (e == 'e' || e == 'E') && !digits.isEmpty && digits.all isDecimal

/-- Digits with an optional point among or around them, and an optional exponent. -/
def isUnsigned (cs : List Char) : Bool :=
  let (whole, rest) := cs.span isDecimal
  match rest with
  | '.' :: more =>
    let (fraction, exponent) := more.span isDecimal
    (!whole.isEmpty || !fraction.isEmpty) && isExponent exponent
  | exponent => !whole.isEmpty && isExponent exponent

/-- The form of a number: an optional minus sign, digits, a point, an exponent; blanks around. -/
def isNumeric (s : String) : Bool := isUnsigned (dropMinus (trim s.toList))

/-- The form of an integer: an optional minus sign and digits; blanks around. -/
def isInteger (s : String) : Bool :=
  let digits := dropMinus (trim s.toList)
  !digits.isEmpty && digits.all isDecimal

/-- The form of a plain decimal: an optional minus sign, digits, and possibly a point and digits. -/
def isPlainDecimal (s : String) : Bool :=
  let (whole, rest) := (dropMinus s.toList).span isDecimal
  !whole.isEmpty && match rest with
    | [] => true
    | '.' :: fraction => !fraction.isEmpty && fraction.all isDecimal
    | _ => false

/-- Reads an integer text. -/
def integer (s : String) : Except NumberFault Value :=
  match Numeral.readInt s with
  | .int n => .ok (.int n)
  | .tooLong digits => .error (.integerTooLong digits)
  | .malformed => .error (.notAnInteger s)

/-- Reads a number: an integer when it has the form of one, a double otherwise. -/
def parse (s : String) : Except NumberFault Value :=
  if isInteger s then integer s
  else match Numeral.real? s with
    | some x => .ok (.float x)
    | none => .error (.notAReal s)

end NumericText

namespace FieldKind

/-- Every kind. -/
def all : List FieldKind :=
  [.text, .dropdown, .autocomplete, .radio, .checkbox, .date, .file, .number, .button]

/-- The name of a kind in documents. -/
def name : FieldKind → String
  | .text => "text"
  | .dropdown => "dropdown"
  | .autocomplete => "autocomplete"
  | .radio => "radio"
  | .checkbox => "checkbox"
  | .date => "date"
  | .file => "file"
  | .number => "number"
  | .button => "button"

/-- The kind with this name. -/
def ofName? (s : String) : Option FieldKind := all.find? fun k => k.name == s

/-- Whether fields of the kind hold no value. -/
def isAction (k : FieldKind) : Bool := k == .button

/-- Whether the value is a plain text. -/
def isTextLike : FieldKind → Bool
  | .text | .dropdown | .autocomplete | .date => true
  | _ => false

/-- The name of the type of the value. -/
def baseType : FieldKind → String
  | .radio => "string|number"
  | .checkbox => "boolean"
  | .number => "number"
  | .file => "file"
  | .button => "action"
  | _ => "string"

/-- The value that a field without a default starts with. -/
def emptyValue : FieldKind → Value
  | .checkbox => .bool false
  | .number => .int 0
  | .file | .button => .null
  | _ => .str ""

/-- A trimmed text in lower case. -/
def folded (s : String) : String := String.ofList (lowerAscii (trim s.toList))

/-- Brings an entered number to a number: a blank text is null, a numeric text its value. -/
def coerceNumber (v : Value) : Except NumberFault Value :=
  match v with
  | .str s =>
    if isBlankText s then .ok .null
    else if NumericText.isNumeric s then NumericText.parse s
    else .ok v
  | _ => .ok v

/-- Brings an entered check mark to a boolean, when it is one of two words. -/
def coerceCheckbox (v : Value) : Value :=
  match v with
  | .str s =>
    if folded s == "true" then .bool true
    else if folded s == "false" then .bool false
    else v
  | _ => v

/-- Brings an entered value to the form that the rules look at. -/
def coerceInput (k : FieldKind) (v : Value) : Except NumberFault Value :=
  match k with
  | .number => coerceNumber v
  | .checkbox => .ok (coerceCheckbox v)
  | _ => .ok v

/-- The number that a rendered default stands for, zero when it stands for none. -/
def coerceNumberDefault (rendered : String) : Value :=
  let s := trimmed rendered
  match Numeral.int? s with
  | some n => .int n
  | none =>
    match Numeral.real? s with
    | some x => if x.isFinite then .float x else .int 0
    | none => .int 0

/-- The value that the output of a default template stands for. -/
def coerceDefault (k : FieldKind) (rendered : String) : Except NumberFault Value :=
  match k with
  | .number => .ok (coerceNumberDefault rendered)
  | .checkbox => .ok (.bool (["true", "1"].contains (folded rendered)))
  | .radio =>
    let s := trimmed rendered
    if NumericText.isPlainDecimal s then NumericText.parse s else .ok (.str rendered)
  | .file =>
    .ok (if ["", "null"].contains (folded rendered) then .null else .str rendered)
  | .button => .ok .null
  | _ => .ok (.str rendered)

theorem ofName?_name (k : FieldKind) : ofName? k.name = some k := by cases k <;> decide

end FieldKind

end Formwork
