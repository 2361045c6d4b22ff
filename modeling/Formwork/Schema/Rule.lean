import Formwork.Calendar.Iso
import Formwork.Display
import Formwork.Document.Field
import Formwork.Pattern.Match
import Formwork.Pattern.Reader
import Formwork.Schema.Error

/-!
# Rules

A compiled rule is a check with the code and the message of its failure. Null and the empty text
pass every check but `required` and custom ones.

Comparisons with a numeric bound are made between doubles. An integer that is too large for one
cannot be compared, and the check has no answer. Nor has one that looks at a value as it is
displayed when that has too many digits.
-/

namespace Formwork

open Formwork.Text (quoted)

/-- A check supplied by the caller. Only the answer true passes. -/
abbrev CustomValidator := Value → Value

/-- The kinds of rules. -/
inductive RuleKind where
  | required | minLength | maxLength | pattern | min | max | minDate | maxDate | custom
  deriving DecidableEq

namespace RuleKind

def all : List RuleKind :=
  [.required, .minLength, .maxLength, .pattern, .min, .max, .minDate, .maxDate, .custom]

/-- The name of a kind in documents. -/
def name : RuleKind → String
  | .required => "required"
  | .minLength => "minLength"
  | .maxLength => "maxLength"
  | .pattern => "pattern"
  | .min => "min"
  | .max => "max"
  | .minDate => "minDate"
  | .maxDate => "maxDate"
  | .custom => "custom"

/-- The kind with this name. -/
def ofName? (s : String) : Option RuleKind := all.find? fun k => k.name == s

end RuleKind

/-- Which end of a range a rule bounds. -/
inductive Side where
  | least | most
  deriving DecidableEq

/-- A check. -/
inductive Check where
  | required
  | length (side : Side) (limit : Nat)
  | pattern (expr : Pattern.Expr)
  | bound (side : Side) (limit : Binary64)
  | date (side : Side) (limit : Date)
  | custom (validator : CustomValidator)

/-- A compiled rule. -/
structure Rule where
  kind : RuleKind
  check : Check
  message : String

/-! ## Checking -/

namespace Value

/-- Whether a value counts as not given. -/
def isBlank : Value → Bool
  | .null => true
  | .str s => s.isEmpty
  | _ => false

/-- A value as a check looks at it. -/
def shown (v : Value) : Except RangeFault String :=
  match v.display? with
  | some s => .ok s
  | none => .error .integerTooLong

/-- The length of a value: of a text or list, else of the value as it is displayed. -/
def shownLength : Value → Except RangeFault Nat
  | .str s => .ok s.length
  | .list items => .ok items.length
  | v => v.shown.map String.length

/-- The double that a value is compared as; none when it is not a number. -/
def double? : Value → Except RangeFault (Option Binary64)
  | .bool b => .ok (some (.finite (if b then 1 else 0)))
  | .int n =>
    match Binary64.ofInt? n with
    | some x => .ok (some x)
    | none => .error .integerTooLarge
  | .float x => .ok (some x)
  | .str s => .ok (Numeral.real? s)
  | _ => .ok none

/-- The date that a value denotes. -/
def date? : Value → Option Date
  | .str s => Iso.parse? s
  | _ => none

/-- Whether a number is there and defined. -/
def isDefinedNumber : Value → Except RangeFault Bool
  | .int n => if (Binary64.ofInt? n).isSome then .ok true else .error .integerTooLarge
  | .float x => .ok (!x.isNaN)
  | _ => .ok false

/-- Whether a value is given, for a field of this kind. -/
def isGiven (kind : FieldKind) (v : Value) : Except RangeFault Bool :=
  match kind, v with
  | .checkbox, .bool b => .ok b
  | .checkbox, _ => .ok false
  | .file, .null => .ok false
  | .file, .str s => .ok (!s.isEmpty)
  | .file, .list items => .ok (!items.isEmpty)
  | .file, _ => .ok true
  | .number, v => v.isDefinedNumber
  | _, .list items => .ok (!items.isEmpty)
  | _, v => .ok (!v.isBlank)

end Value

/-- Whether a length lies within a limit. -/
def Side.holdsLength (side : Side) (limit size : Nat) : Bool :=
  match side with
  | .least => limit ≤ size
  | .most => size ≤ limit

/-- Whether a number lies within a limit. -/
def Side.holdsDouble (side : Side) (limit x : Binary64) : Bool :=
  !x.isNaN &&
    match side with
    | .least => !x.lt limit
    | .most => !limit.lt x

/-- Whether a date lies within a limit. -/
def Side.holdsDate (side : Side) (limit d : Date) : Bool :=
  match side with
  | .least => !d.lt limit
  | .most => !limit.lt d

/-- Whether a value passes a check. -/
def Check.passes (c : Check) (kind : FieldKind) (v : Value) : Except RangeFault Bool :=
  match c with
  | .required => v.isGiven kind
  | .custom validator => .ok (match validator v with | .bool b => b | _ => false)
  | .length side limit =>
    if v.isBlank then .ok true else v.shownLength.map (side.holdsLength limit)
  | .pattern e => if v.isBlank then .ok true else v.shown.map e.occursIn
  | .bound side limit =>
    -- A bound says nothing about a value that was not given.
    if v.isBlank then .ok true
    else v.double?.map fun x => x.any (side.holdsDouble limit)
  | .date side limit => .ok (v.isBlank || v.date?.any (side.holdsDate limit))

/-! ## Compiling -/

/-- An integer as it is shown, unless it has too many digits for that. -/
def shownInteger (n : Int) : Except RangeFault String :=
  if Numeral.isWritable n then .ok (toString n) else .error .integerTooLong

namespace Parameter

/-- A parameter as it is shown in faults. -/
def shown : Parameter → Except RangeFault String
  | .int n => shownInteger n
  | .real x => .ok x.text
  | .text s => .ok (quoted s)

/-- A parameter as a text. -/
def asText : Parameter → Except RangeFault String
  | .text s => .ok s
  | p => p.shown

end Parameter

/-- What a pattern is out of range for, if it is not malformed. -/
def Pattern.PatternFault.range? : Pattern.PatternFault → Option RangeFault
  | .malformed => none
  | .tooManyTimes => some .tooManyTimes
  | .numeralTooLong digits => some (.numeralTooLong digits)
  | .codeTooLarge => some .codeTooLarge
  | .mixedAlphabets => some .mixedAlphabets

/-- Where a rule stands, for what it reports. -/
structure RulePlace where
  fieldId : String
  kind : RuleKind

namespace RulePlace

/-- Reports a malformed rule. -/
def fault {α : Type} (place : RulePlace) (f : RuleFault) : Except SchemaError α :=
  .error (.malformed place.fieldId place.kind.name f)

/-- The parameter of a rule that needs one. -/
def require (place : RulePlace) (p : Option Parameter) : Except SchemaError Parameter :=
  match p with
  | none => place.fault .missingParameter
  | some (.text "") => place.fault .missingParameter
  | some p => .ok p

/-- An integer parameter. -/
def integer (place : RulePlace) (p : Parameter) : Except SchemaError Int :=
  match p with
  | .int n => .ok n
  -- An infinity has no integer part at all, which is no fault of the wording of the rule.
  | .real (.infinity _) => .error (.outOfRange .infiniteInteger)
  | .real x =>
    match x.truncate? with
    | some n => .ok n
    | none => place.fault (.notAnInteger x.text)
  | .text s =>
    match Numeral.int? s with
    | some n => .ok n
    | none => place.fault (.notAnInteger (quoted s))

/-- A count parameter. -/
def count (place : RulePlace) (p : Option Parameter) : Except SchemaError Nat := do
  let n ← place.integer (← place.require p)
  if n < 0 then place.fault .negative else .ok n.toNat

/-- A numeric parameter. -/
def number (place : RulePlace) (p : Option Parameter) : Except SchemaError Binary64 := do
  let p ← place.require p
  let x ← (match p with
    | .int n =>
      match Binary64.ofInt? n with
      | some x => .ok x
      | none => .error (.outOfRange .integerTooLarge)
    | .real x => .ok x
    | .text s =>
      match Numeral.real? s with
      | some x => .ok x
      | none => place.fault (.notANumber (quoted s)))
  if x.isNaN then place.fault .undefinedNumber else .ok x

/-- A date parameter. -/
def date (place : RulePlace) (p : Option Parameter) : Except SchemaError Date := do
  let p ← place.require p
  match p.toValue.date? with
  | some d => .ok d
  | none => do place.fault (.notADate (← p.shown.mapError .outOfRange))

/-- A pattern parameter. -/
def pattern (place : RulePlace) (p : Option Parameter) : Except SchemaError Pattern.Expr := do
  let text ← (← place.require p).asText.mapError .outOfRange
  match Pattern.read text with
  | .ok e => .ok e
  | .error f =>
    match f.range? with
    | some fault => .error (.outOfRange fault)
    | none => place.fault .malformedPattern

/-- A custom validator, by its name. -/
def validator (place : RulePlace) (validators : Ordered CustomValidator) (p : Option Parameter) :
    Except SchemaError CustomValidator := do
  let name ← (← place.require p).asText.mapError .outOfRange
  match Ordered.get? validators name with
  | some v => .ok v
  | none => place.fault (.unknownValidator name)

end RulePlace

/-- A bound as it is shown: a whole number without a point. -/
def shownBound (x : Binary64) : String :=
  match x.toInt? with
  | some n => toString n
  | none => x.text

/-- The message of a failed check that has no message of its own. -/
def Check.message : Check → Except RangeFault String
  | .required => .ok "This field is required"
  | .length .least limit =>
    (shownInteger limit).map fun shown => "Must be at least " ++ shown ++ " characters"
  | .length .most limit =>
    (shownInteger limit).map fun shown => "Must be at most " ++ shown ++ " characters"
  | .pattern _ => .ok "Invalid format"
  | .bound .least limit => .ok ("Must be greater than or equal to " ++ shownBound limit)
  | .bound .most limit => .ok ("Must be less than or equal to " ++ shownBound limit)
  | .date .least limit => .ok ("Date must be on or after " ++ limit.text)
  | .date .most limit => .ok ("Date must be on or before " ++ limit.text)
  | .custom _ => .ok "Invalid value"

/-- The check of a rule. -/
def RulePlace.check (place : RulePlace) (validators : Ordered CustomValidator)
    (p : Option Parameter) : Except SchemaError Check :=
  match place.kind with
  | .required => .ok .required
  | .minLength => (place.count p).map (.length .least)
  | .maxLength => (place.count p).map (.length .most)
  | .pattern => (place.pattern p).map .pattern
  | .min => (place.number p).map (.bound .least)
  | .max => (place.number p).map (.bound .most)
  | .minDate => (place.date p).map (.date .least)
  | .maxDate => (place.date p).map (.date .most)
  | .custom => (place.validator validators p).map .custom

/-- The message of a rule, which may be that of its check. A message that is there but empty counts
as none. -/
def ValidationRule.messageFor (r : ValidationRule) (check : Check) : Except SchemaError String :=
  if r.message.isEmpty then check.message.mapError .outOfRange else .ok r.message

/-- Compiles a rule of a field. -/
def ValidationRule.compile (validators : Ordered CustomValidator) (fieldId : String)
    (r : ValidationRule) : Except SchemaError Rule :=
  match RuleKind.ofName? r.kind with
  | none => .error (.malformed fieldId r.kind .unknownKind)
  | some kind => do
    let check ← (RulePlace.mk fieldId kind).check validators r.parameter
    .ok ⟨kind, check, ← r.messageFor check⟩

end Formwork
