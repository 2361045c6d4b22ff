import Formwork.Calendar.Date
import Formwork.Document.Datum
import Formwork.Number.Numeral
import Formwork.Json.Reader
import Formwork.Text.CaseMap
import Formwork.Yaml.Cursor

/-!
# The kinds of YAML scalars

A plain scalar without a tag is told by its text: it is a boolean, a double, an integer, null, a
timestamp, or one of the marks that only mean something as keys, in this order; otherwise it is
text. A tag can ask for a kind that the text does not have.
-/

namespace Formwork.Yaml

/-- The kinds of scalars. -/
inductive ScalarKind where
  | bool | real | int | null | timestamp | text | binary
  /-- The key of the mappings that are merged in. -/
  | merge
  /-- The key of the default value of a mapping. -/
  | defaultKey
  deriving DecidableEq

/-! ## Forms -/

def isAsciiDigit (c : Char) : Bool := '0' ≤ c && c ≤ '9'

def isDigitOrLow (c : Char) : Bool := isAsciiDigit c || c == '_'

/-- A text without a sign in front. -/
def dropSign (cs : List Char) : List Char := (Numeral.splitSign cs).2

/-- A digit followed by digits and underscores. -/
def isDigitWord (cs : List Char) : Bool := cs.head?.any isAsciiDigit && cs.all isDigitOrLow

/-- A part of a base-60 number. -/
def isSixtieth : List Char → Bool
  | [a] => isAsciiDigit a
  | [a, b] => '0' ≤ a && a ≤ '5' && isAsciiDigit b
  | _ => false

/-- Whether a text is one of the words. -/
def isOneOf (words : List String) (cs : List Char) : Bool := words.any fun w => w.toList == cs

def isBoolWord : List Char → Bool :=
  isOneOf ["yes", "Yes", "YES", "no", "No", "NO", "true", "True", "TRUE", "false", "False", "FALSE",
    "on", "On", "ON", "off", "Off", "OFF"]

def isNullWord : List Char → Bool := isOneOf ["", "~", "null", "Null", "NULL"]

/-- An exponent with a sign, or nothing. -/
def isSignedExponent : List Char → Bool
  | [] => true
  | e :: s :: ds =>
    (e == 'e' || e == 'E') && (s == '-' || s == '+') && !ds.isEmpty && ds.all isAsciiDigit
  | _ => false

/-- What may follow the point of a double: digits and underscores, then an exponent. -/
def isFraction (cs : List Char) : Bool := isSignedExponent (cs.dropWhile isDigitOrLow)

/-- Base-60 parts with a point and digits after the last. -/
def isSexagesimalReal (cs : List Char) : Bool :=
  match (cs.splitOn ':') with
  | whole :: parts@(_ :: _) =>
    isDigitWord whole && parts.dropLast.all isSixtieth &&
      (match ((parts.getLast?).getD []).span (· != '.') with
        | (last, _ :: fraction) => isSixtieth last && fraction.all isDigitOrLow
        | _ => false)
  | _ => false

def isRealWord (cs : List Char) : Bool :=
  let unsigned := dropSign cs
  let pointed := match unsigned.span (· != '.') with
    | (whole, _ :: fraction) => isDigitWord whole && isFraction fraction
    | _ => false
  let leadingPoint := match cs with
    | '.' :: d :: rest => isAsciiDigit d && isFraction rest
    | _ => false
  pointed || leadingPoint || isSexagesimalReal unsigned ||
    isOneOf [".inf", ".Inf", ".INF"] unsigned || isOneOf [".nan", ".NaN", ".NAN"] cs

/-- Digits of a base that a prefix announces. -/
def isBased (p : Char → Bool) (cs : List Char) : Bool :=
  !cs.isEmpty && cs.all fun c => p c || c == '_'

def isHexDigit (c : Char) : Bool :=
  isAsciiDigit c || ('a' ≤ c && c ≤ 'f') || ('A' ≤ c && c ≤ 'F')

def isSexagesimalInt (cs : List Char) : Bool :=
  match cs.splitOn ':' with
  | whole :: parts@(_ :: _) =>
    isDigitWord whole && whole.head? != some '0' && parts.all isSixtieth
  | _ => false

def isIntWord (cs : List Char) : Bool :=
  let unsigned := dropSign cs
  match unsigned with
  | ['0'] => true
  | '0' :: 'b' :: rest => isBased (fun c => c == '0' || c == '1') rest
  | '0' :: 'x' :: rest => isBased isHexDigit rest
  | '0' :: rest => isBased (fun c => '0' ≤ c && c ≤ '7') rest
  | _ => isDigitWord unsigned || isSexagesimalInt unsigned

/-! ## Timestamps -/

/-- Between `least` and `most` digits in front. -/
def digitsBetween (least most : Nat) (cs : List Char) : Option (Nat × List Char) :=
  let ds := (cs.take most).takeWhile isAsciiDigit
  if ds.length < least then none
  else some (Numeral.ofDigits (ds.map fun d => d.toNat - 48), cs.drop ds.length)

/-- A character in front. -/
def expect (c : Char) : List Char → Option (List Char)
  | x :: rest => if x == c then some rest else none
  | [] => none

/-- The parts of a timestamp. -/
structure Timestamp where
  year : Nat
  month : Nat
  day : Nat
  /-- Hour, minute and second. -/
  time : Option (Nat × Nat × Nat)
  /-- Sign, hours and minutes of the offset. -/
  offset : Option (Bool × Nat × Nat)

/-- The offset of a timestamp: nothing, a `Z`, or hours and maybe minutes. -/
def timeOffset? (cs : List Char) : Option (Option (Bool × Nat × Nat)) :=
  match cs.dropWhile fun c => c == ' ' || c == '\t' with
  | [] => if cs.isEmpty then some none else none
  | ['Z'] => some none
  | s :: rest =>
    if s == '-' || s == '+' then do
      let (hours, rest) ← digitsBetween 1 2 rest
      match rest with
      | [] => some (some (s == '-', hours, 0))
      | _ => do
        let rest ← expect ':' rest
        let (minutes, rest) ← digitsBetween 2 2 rest
        if rest.isEmpty then some (some (s == '-', hours, minutes)) else none
    else none

/-- The time of a timestamp after its date. -/
def timeOfDay? (cs : List Char) :
    Option ((Nat × Nat × Nat) × Option (Bool × Nat × Nat)) := do
  let blank (c : Char) : Bool := c == ' ' || c == '\t'
  let cs ← match cs with
    | c :: rest =>
      if c == 'T' || c == 't' then some rest
      else if blank c then some (rest.dropWhile blank)
      else none
    | [] => none
  let (hour, cs) ← digitsBetween 1 2 cs
  let cs ← expect ':' cs
  let (minute, cs) ← digitsBetween 2 2 cs
  let cs ← expect ':' cs
  let (second, cs) ← digitsBetween 2 2 cs
  let cs := match cs with
    | '.' :: rest => rest.dropWhile isAsciiDigit
    | _ => cs
  let offset ← timeOffset? cs
  some ((hour, minute, second), offset)

/-- The parts of a timestamp text. -/
def timestampParts? (cs : List Char) : Option Timestamp := do
  let (year, rest) ← digitsBetween 4 4 cs
  let rest ← expect '-' rest
  let (month, rest) ← digitsBetween 1 2 rest
  let rest ← expect '-' rest
  let (day, rest) ← digitsBetween 1 2 rest
  if rest.isEmpty then some ⟨year, month, day, none, none⟩
  else do
    let (time, offset) ← timeOfDay? rest
    some ⟨year, month, day, some time, offset⟩

/-- The parts of a text that is said to be a timestamp, which may end in a line feed. -/
def timestamp? (cs : List Char) : Option Timestamp :=
  timestampParts? (if cs.getLast? == some '\n' then cs.dropLast else cs)

/-- Whether a text is a timestamp of itself. A date alone is written with all of its digits. -/
def isTimestampWord (cs : List Char) : Bool :=
  (timestampParts? cs).any fun t => t.time.isSome || cs.length == 10

/-! ## Kinds -/

/-- The kind of a plain scalar. -/
def ScalarKind.ofText (s : String) : ScalarKind :=
  let cs := s.toList
  if isBoolWord cs then .bool
  else if isRealWord cs then .real
  else if isIntWord cs then .int
  else if s == "<<" then .merge
  else if isNullWord cs then .null
  else if isTimestampWord cs then .timestamp
  else if s == "=" then .defaultKey
  else .text

/-- The kind that a tag asks for. -/
def ScalarKind.ofTag? (tag : String) : Option ScalarKind :=
  [("tag:yaml.org,2002:bool", ScalarKind.bool), ("tag:yaml.org,2002:float", .real),
   ("tag:yaml.org,2002:int", .int), ("tag:yaml.org,2002:null", .null),
   ("tag:yaml.org,2002:timestamp", .timestamp), ("tag:yaml.org,2002:str", .text),
   ("tag:yaml.org,2002:binary", .binary), ("tag:yaml.org,2002:merge", .merge),
   ("tag:yaml.org,2002:value", .defaultKey)].lookup tag

/-! ## Values -/

/-- The value of a digit of a base up to 16. -/
def digitOf? (c : Char) : Option Nat := (Text.digitValue? c).orElse fun _ => Json.hexDigit? c

/-- The letter that announces a base in front of its digits. -/
def baseLetter : Nat → Char
  | 2 => 'b'
  | 8 => 'o'
  | _ => 'x'

/-- The natural number with these digits of a base. -/
def ofBasedDigits? (base : Nat) (cs : List Char) : Option Nat :=
  if cs.isEmpty then none
  else cs.foldlM (fun n c => (digitOf? c).bind fun d =>
    if d < base then some (base * n + d) else none) 0

/-- The integer with a numeral of a base, in which the base may be announced once more. -/
def basedNumber? (base : Nat) (cs : List Char) : Option Int :=
  let (negative, body) := Numeral.splitSign (Text.trimBy Text.isNumeralBlank cs)
  let digits := match body with
    | '0' :: letter :: rest => if letter.toLower == baseLetter base then rest else body
    | _ => body
  (ofBasedDigits? base digits).map fun n => if negative then -n else n

/-- Reads a numeral of a base. -/
def readBased (base : Nat) (cs : List Char) : Except ScalarFault Int :=
  match basedNumber? base cs with
  | some n => .ok n
  | none => .error (.notAnInteger base (String.ofList cs))

/-- Reads a decimal numeral. -/
def readDecimal (cs : List Char) : Except ScalarFault Int :=
  match Numeral.readInt (String.ofList cs) with
  | .int n => .ok n
  | .tooLong digits => .error (.integerTooLong digits)
  | .malformed => .error (.notAnInteger 10 (String.ofList cs))

/-- The text of a number without underscores, split after its sign. -/
def splitNumber (cs : List Char) : Except ScalarFault (Bool × List Char) :=
  let cs := cs.filter (· != '_')
  if cs.isEmpty then .error .emptyNumber else .ok (Numeral.splitSign cs)

/-- An integer, in base 2, 8, 10, 16 or in parts of base 60. -/
def readInteger (s : String) : Except ScalarFault Int := do
  let (negative, body) ← splitNumber s.toList
  let n ← match body with
    | [] => .error .emptyNumber
    | ['0'] => .ok 0
    | '0' :: 'b' :: ds => readBased 2 ds
    | '0' :: 'x' :: ds => readBased 16 ds
    | '0' :: _ => readBased 8 body
    | _ =>
      if body.contains ':' then do
        let parts ← (body.splitOn ':').mapM readDecimal
        .ok (parts.foldl (fun n d => 60 * n + d) 0)
      else readDecimal body
  .ok (if negative then -n else n)

/-- A double of the other sign. -/
def negateReal : Binary64 → Binary64
  | .nan => .nan
  | .infinity negative => .infinity (!negative)
  | .negativeZero => .finite 0
  | .finite v => if v = 0 then .negativeZero else .finite (-v)

/-- The double nearest to an exact result. -/
def nearestReal (v : Dyadic) : Binary64 :=
  let q := v.toRat
  Binary64.ofFraction (q.num < 0) q.num.natAbs q.den

/-- The sum of two doubles. The sign of a zero is left out. -/
def addReals (x y : Binary64) : Binary64 :=
  match x, y with
  | .nan, _ | _, .nan => .nan
  | .infinity a, .infinity b => if a == b then .infinity a else .nan
  | .infinity a, _ | _, .infinity a => .infinity a
  | x, y => nearestReal ((x.value?.getD 0) + (y.value?.getD 0))

/-- The product of a double and a positive one. The sign of a zero is left out. -/
def scaleReal (x : Binary64) (factor : Dyadic) : Binary64 :=
  match x with
  | .finite v => nearestReal (v * factor)
  | x => x

/-- The real with these parts of base 60, the last one first, from a power of 60 on. -/
def sumParts (power : Nat) (sum : Binary64) : List Binary64 → Except ScalarFault Binary64
  | [] => .ok sum
  | part :: rest =>
    match (Binary64.ofInt? power).bind Binary64.value? with
    | some factor => sumParts (60 * power) (addReals sum (scaleReal part factor)) rest
    | none => .error .realTooLarge

/-- Reads a real numeral. -/
def readNumeral (cs : List Char) : Except ScalarFault Binary64 :=
  match Numeral.real? (String.ofList cs) with
  | some x => .ok x
  | none => .error (.notAReal (String.ofList cs))

/-- A double, in decimal or with parts of base 60. -/
def readReal (s : String) : Except ScalarFault Binary64 := do
  let (negative, body) ← splitNumber (s.toList.map Text.lowerChar)
  let x ←
    if body == ".inf".toList then .ok (.infinity false)
    else if body == ".nan".toList then .ok .nan
    else if body.contains ':' then do
      let parts ← (body.splitOn ':').mapM readNumeral
      sumParts 1 (.finite 0) parts.reverse
    else readNumeral body
  .ok (if negative then negateReal x else x)

/-- A span of days and seconds as it is shown. -/
def spanText (days : Int) (seconds : Nat) : String :=
  "datetime.timedelta(days=" ++ toString days ++
    (if seconds = 0 then "" else ", seconds=" ++ toString seconds) ++ ")"

/-- Checks that an offset is shorter than a day. -/
def checkOffset (offset : Bool × Nat × Nat) : Except ScalarFault Unit :=
  let (negative, hours, minutes) := offset
  let size : Int := 60 * (60 * hours + minutes)
  let seconds := if negative then -size else size
  if size < 86400 then .ok ()
  else .error (.timestamp ("offset must be a timedelta strictly between " ++
    "-timedelta(hours=24) and timedelta(hours=24), not " ++
    spanText (seconds / 86400) (seconds % 86400).toNat ++ "."))

/-- Checks that a time is a time of a day. -/
def checkTime (time : Nat × Nat × Nat) : Except ScalarFault Unit :=
  let (hour, minute, second) := time
  if 23 < hour then .error (.timestamp "hour must be in 0..23")
  else if 59 < minute then .error (.timestamp "minute must be in 0..59")
  else if 59 < second then .error (.timestamp "second must be in 0..59")
  else .ok ()

/-- Checks that a timestamp is a point in time; it is kept only as the name of its type. -/
def readTimestamp (t : Timestamp) : Except ScalarFault Datum := do
  t.offset.forM checkOffset
  let _ ← (Date.make t.year t.month t.day).mapError fun f => ScalarFault.timestamp f.message
  match t.time with
  | none => .ok (.foreign "date")
  | some time => do
    checkTime time
    .ok (.foreign "datetime")

/-- The booleans by their words in lower case. -/
def boolWords : List (String × Bool) :=
  [("yes", true), ("no", false), ("true", true), ("false", false), ("on", true), ("off", false)]

/--
How far a quadruple of base 64 has come, and the padding after it; none when nothing after it
counts. What is no digit is passed over.
-/
def padQuadruple (state : Option (Nat × Nat)) (c : Char) : Option (Nat × Nat) :=
  state.bind fun (size, pads) =>
    if c == '=' then
      if size < 2 then some (size, pads)
      else if 4 ≤ size + pads + 1 then none
      else some (size, pads + 1)
    else if c.isAlphanum || c == '+' || c == '/' then some ((size + 1) % 4, 0)
    else some (size, pads)

/-- Whether a text is one of base 64. -/
def isBase64 (cs : List Char) : Bool :=
  cs.all (·.toNat < 128) && (cs.foldl padQuadruple (some (0, 0))).all fun (size, _) => size == 0

/-- The value of a scalar of a kind. -/
def ScalarKind.build (kind : ScalarKind) (s : String) : Except YamlError Datum :=
  let orFault {α : Type} (x : Except ScalarFault α) : Except YamlError α := x.mapError .scalar
  match kind with
  | .text => .ok (.text s)
  | .null => .ok .null
  | .bool =>
    let word := String.ofList (s.toList.map Text.lowerChar)
    match boolWords.lookup word with
    | some b => .ok (.bool b)
    | none => .error (.scalar (.notABoolean word))
  | .int => (orFault (readInteger s)).map .int
  | .real => (orFault (readReal s)).map .real
  | .timestamp =>
    match timestamp? s.toList with
    | some t => orFault (readTimestamp t)
    | none => .error (.scalar .notATimestamp)
  | .binary => if isBase64 s.toList then .ok (.foreign "bytes") else .error .malformed
  | .merge | .defaultKey => .error .malformed

end Formwork.Yaml
