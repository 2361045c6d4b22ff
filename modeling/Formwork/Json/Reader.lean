import Formwork.Number.Numeral
import Formwork.Value

/-!
# Reading JSON

The reader accepts JSON text with the three extra words `NaN`, `Infinity` and `-Infinity`. A number
with neither point nor exponent is an integer of any size up to the limit of integer numerals. Of
two members with one key the later value counts, in the place of the earlier one.

Each step of the reader consumes input, so the length of the text bounds the depth and the number
of steps.
-/

namespace Formwork.Json

/-- Why a text is not read. -/
inductive ReadError where
  | malformed
  /-- An integer has more digits than a numeral may have. -/
  | integerTooLong (digits : Nat)
  deriving DecidableEq

/-- The white space of JSON. -/
def isSpace (c : Char) : Bool := c == ' ' || c == '\t' || c == '\n' || c == '\r'

def skipSpace (cs : List Char) : List Char := cs.dropWhile isSpace

/-- The value of a hexadecimal digit. -/
def hexDigit? (c : Char) : Option Nat :=
  if '0' ≤ c && c ≤ '9' then some (c.toNat - 48)
  else if 'a' ≤ c && c ≤ 'f' then some (c.toNat - 87)
  else if 'A' ≤ c && c ≤ 'F' then some (c.toNat - 55)
  else none

/-- Four hexadecimal digits. -/
def unit? : List Char → Option (Nat × List Char)
  | a :: b :: c :: d :: rest => do
    let a ← hexDigit? a
    let b ← hexDigit? b
    let c ← hexDigit? c
    let d ← hexDigit? d
    some (a * 4096 + b * 256 + c * 16 + d, rest)
  | _ => none

def isHighSurrogate (n : Nat) : Bool := 0xD800 ≤ n && n < 0xDC00
def isLowSurrogate (n : Nat) : Bool := 0xDC00 ≤ n && n < 0xE000

/-- The character that stands for half of a pair whose other half is missing. -/
def loneHalf : Char := Char.ofNat 0xFFFD

/-- A `\u` escape after its first two characters: the unit, or the pair that it starts. -/
def unicodeEscape? (cs : List Char) : Option (Char × List Char) := do
  let (high, rest) ← unit? cs
  if isHighSurrogate high then
    match rest with
    | '\\' :: 'u' :: rest' =>
      match unit? rest' with
      | some (low, rest'') =>
        if isLowSurrogate low then
          some (Char.ofNat (0x10000 + (high - 0xD800) * 0x400 + (low - 0xDC00)), rest'')
        else some (loneHalf, rest)
      | none => some (loneHalf, rest)
    | _ => some (loneHalf, rest)
  else if isLowSurrogate high then some (loneHalf, rest)
  else some (Char.ofNat high, rest)

/-- The character of a one-letter escape. -/
def simpleEscape? (c : Char) : Option Char :=
  if c == '"' || c == '\\' || c == '/' then some c
  else if c == 'b' then some (Char.ofNat 8)
  else if c == 'f' then some (Char.ofNat 12)
  else if c == 'n' then some '\n'
  else if c == 'r' then some '\r'
  else if c == 't' then some '\t'
  else none

/-- The rest of a string after its opening quote. -/
def stringBody? : Nat → List Char → Option (List Char × List Char)
  | _, [] => none
  | _, '"' :: rest => some ([], rest)
  | 0, _ => none
  | fuel + 1, '\\' :: 'u' :: rest => do
    let (c, after) ← unicodeEscape? rest
    let (cs, tail) ← stringBody? fuel after
    some (c :: cs, tail)
  | fuel + 1, '\\' :: e :: rest => do
    let c ← simpleEscape? e
    let (cs, tail) ← stringBody? fuel rest
    some (c :: cs, tail)
  | fuel + 1, c :: rest =>
    if c.toNat < 32 || c == '\\' then none
    else do
      let (cs, tail) ← stringBody? fuel rest
      some (c :: cs, tail)

def isAsciiDigit (c : Char) : Bool := '0' ≤ c && c ≤ '9'

/-- The digits at the front. -/
def digits (cs : List Char) : List Char × List Char := cs.span isAsciiDigit

/-- A fraction part, empty when no digit follows the point. -/
def fractionPart : List Char → List Char × List Char
  | '.' :: rest =>
    match digits rest with
    | ([], _) => ([], '.' :: rest)
    | (ds, after) => (ds, after)
  | cs => ([], cs)

/-- An exponent part, absent when no digit follows the mark. -/
def exponentPart (cs : List Char) : Option Int × List Char :=
  match cs with
  | e :: rest =>
    if e == 'e' || e == 'E' then
      let (negative, body) := match rest with
        | '-' :: body => (true, body)
        | '+' :: body => (false, body)
        | body => (false, body)
      match digits body with
      | ([], _) => (none, cs)
      | (ds, after) =>
        let n : Int := Numeral.ofDigits (ds.map fun c => c.toNat - 48)
        (some (if negative then -n else n), after)
    else (none, cs)
  | [] => (none, [])

/-- A number after its sign, in front of any text. -/
def unsigned (negative : Bool) (cs : List Char) : Except ReadError (Value × List Char) :=
  let whole := match cs with
    | '0' :: rest => (['0'], rest)
    | _ => digits cs
  match whole with
  | ([], _) => .error .malformed
  | (ds, afterWhole) =>
    let (fraction, afterFraction) := fractionPart afterWhole
    let (exponent, rest) := exponentPart afterFraction
    let value (cs : List Char) : Nat := Numeral.ofDigits (cs.map fun c => c.toNat - 48)
    if fraction.isEmpty && exponent.isNone then
      if Numeral.maxDigits < ds.length then .error (.integerTooLong ds.length)
      else .ok (.int (if negative then -(value ds : Int) else value ds), rest)
    else
      .ok (.float (Binary64.ofDecimal negative (value (ds ++ fraction))
        (exponent.getD 0 - fraction.length)), rest)

/-- The words of JSON and the three extra ones. -/
def words : List (String × Value) :=
  [("null", .null), ("true", .bool true), ("false", .bool false), ("NaN", .float .nan),
   ("Infinity", .float (.infinity false)), ("-Infinity", .float (.infinity true))]

/-- A word in front of any text. -/
def word? (cs : List Char) : Option (Value × List Char) :=
  words.findSome? fun (text, value) => (text.toList.isPrefixOf? cs).map fun rest => (value, rest)

/-- A scalar other than a string. -/
def plain (cs : List Char) : Except ReadError (Value × List Char) :=
  match word? cs with
  | some found => .ok found
  | none =>
    match cs with
    | '-' :: rest => unsigned true rest
    | _ => unsigned false cs

mutual

/-- A value in front of any text. -/
def value : Nat → List Char → Except ReadError (Value × List Char)
  | 0, _ => .error .malformed
  | fuel + 1, cs =>
    match cs with
    | '"' :: rest =>
      match stringBody? rest.length rest with
      | some (s, after) => .ok (.str (String.ofList s), after)
      | none => .error .malformed
    | '[' :: rest =>
      match skipSpace rest with
      | ']' :: after => .ok (.list [], after)
      | body => do
        let (xs, after) ← items fuel body
        .ok (.list xs, after)
    | '{' :: rest =>
      match skipSpace rest with
      | '}' :: after => .ok (.object [], after)
      | body => do
        let (ms, after) ← members fuel body
        .ok (.object (Ordered.ofList ms), after)
    | _ => plain cs

/-- The items of a list up to its closing bracket. -/
def items : Nat → List Char → Except ReadError (List Value × List Char)
  | 0, _ => .error .malformed
  | fuel + 1, cs => do
    let (x, afterItem) ← value fuel cs
    match skipSpace afterItem with
    | ']' :: after => .ok ([x], after)
    | ',' :: more =>
      let (xs, after) ← items fuel (skipSpace more)
      .ok (x :: xs, after)
    | _ => .error .malformed

/-- The members of an object up to its closing brace. -/
def members : Nat → List Char → Except ReadError (List (String × Value) × List Char)
  | 0, _ => .error .malformed
  | fuel + 1, cs =>
    match cs with
    | '"' :: rest =>
      match stringBody? rest.length rest with
      | none => .error .malformed
      | some (key, afterKey) =>
        match skipSpace afterKey with
        | ':' :: beforeValue => do
          let (x, afterValue) ← value fuel (skipSpace beforeValue)
          match skipSpace afterValue with
          | '}' :: after => .ok ([(String.ofList key, x)], after)
          | ',' :: more =>
            let (ms, after) ← members fuel (skipSpace more)
            .ok ((String.ofList key, x) :: ms, after)
          | _ => .error .malformed
        | _ => .error .malformed
    | _ => .error .malformed

end

/-- Reads a whole text as one value. -/
def read (s : String) : Except ReadError Value := do
  let cs := skipSpace s.toList
  let (v, rest) ← value (cs.length + 1) cs
  if (skipSpace rest).isEmpty then .ok v else .error .malformed

end Formwork.Json
