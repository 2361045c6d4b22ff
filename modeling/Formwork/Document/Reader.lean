import Formwork.Document.Datum
import Formwork.Document.Fault
import Formwork.Number.Numeral
import Formwork.Number.Shortest

/-!
# Reading parts of documents

Readers turn nodes of a document into parts of a form and report all faults, in the order of the
parts. A **record reader** reads a mapping: each of its fields has one name or several spellings of
it, of which the first that is present counts; once all fields are read, the keys that none of them
used are refused or ignored.

Scalars are read generously: a boolean may be one of several words or the number `0` or `1`, and an
integer may be a whole double or an integer numeral.
-/

namespace Formwork

/-- A part that was read, or all that is wrong with it. -/
abbrev Reading (α : Type _) := Except (List Fault) α

namespace Reading

variable {α β : Type _}

/-- One fault, here. -/
def fault (kind : FaultKind) : Reading α := .error [⟨[], kind⟩]

/-- The same reading seen from one level further out. -/
def within (step : PathStep) (r : Reading α) : Reading α :=
  r.mapError fun faults => faults.map (Fault.within step)

/-- Both readings, with the faults of both. -/
def both (x : Reading α) (y : Reading β) : Reading (α × β) :=
  match x, y with
  | .ok a, .ok b => .ok (a, b)
  | .error e, .ok _ => .error e
  | .ok _, .error e => .error e
  | .error e, .error e' => .error (e ++ e')

/-- All readings, with the faults of all. -/
def all : List (Reading α) → Reading (List α)
  | [] => .ok []
  | r :: rest => (both r (all rest)).map fun (a, as) => a :: as

end Reading

namespace Datum

variable {α : Type _}

/-! ## Scalars -/

def readText : Datum → Reading String
  | .text s => .ok s
  | _ => .fault .stringType

/-- A text of at least one character. -/
def readName : Datum → Reading String
  | .text s => if s.isEmpty then .fault .stringTooShort else .ok s
  | _ => .fault .stringType

/-- The words that are read as true. -/
def trueWords : List String := ["1", "t", "true", "y", "yes", "on"]

/-- The words that are read as false. -/
def falseWords : List String := ["0", "f", "false", "n", "no", "off"]

/-- Integers from `-wordLimit` up to below `wordLimit` fit a machine word. -/
def wordLimit : Int := Int.pow 2 63

/-- The boolean that an integer is read as. One beyond a machine word is no candidate at all. -/
def boolOfInt (n : Int) : Reading Bool :=
  if n = 1 then .ok true
  else if n = 0 then .ok false
  else if -wordLimit ≤ n ∧ n < wordLimit then .fault .boolParsing
  else .fault .boolType

def readBool : Datum → Reading Bool
  | .bool b => .ok b
  | .text s =>
    let word := String.ofList (s.toList.map Char.toLower)
    if trueWords.contains word then .ok true
    else if falseWords.contains word then .ok false
    else .fault .boolParsing
  | .int n => boolOfInt n
  | .real x =>
    match x.toInt? with
    | some n => boolOfInt n
    | none => .fault .boolType
  | _ => .fault .boolType

/-- The integer that a double is read as. -/
def intOfDouble (x : Binary64) : Reading Int :=
  if !x.isFinite then .fault .finiteNumber
  else match x.toInt? with
    | none => .fault .intFromFloat
    | some n =>
      if -wordLimit < n ∧ n < wordLimit then .ok n else .fault .intParsingSize

/-- The digits of an integer numeral: ASCII digits with single underscores between them, and after
them possibly a point and zeros. A negative one has no leading zeros. -/
def integerDigits? (negative : Bool) (cs : List Char) : Option (List Char) :=
  let (whole, fraction) := cs.span (· != '.')
  let digits := whole.filter (· != '_')
  let separated := Numeral.digitRun whole
  if !fraction.isEmpty && !(fraction.drop 1).all (· == '0') then none
  else if digits.isEmpty || !digits.all Char.isDigit then none
  else if negative && 1 < digits.length && digits.head? == some '0' then none
  else if separated.2.isEmpty then some digits else none

def intOfText (s : String) : Reading Int :=
  let (negative, body) := Numeral.splitSign (Text.trimBy Text.isNumeralBlank s.toList)
  match integerDigits? negative body with
  | none => .fault .intParsing
  | some digits =>
    if Numeral.maxDigits < s.length then .fault .intParsingSize
    else
      let n : Int := Numeral.ofDigits (digits.map fun c => c.toNat - 48)
      .ok (if negative then -n else n)

def readInt : Datum → Reading Int
  | .int n => .ok n
  | .bool b => .ok (if b then 1 else 0)
  | .real x => intOfDouble x
  | .text s => intOfText s
  | _ => .fault .intType

/-- An integer that is not negative. -/
def readCount (d : Datum) : Reading Nat :=
  match readInt d with
  | .error e => .error e
  | .ok n => if n < 0 then .fault .belowZero else .ok n.toNat

/-- One of the values of an enumeration, by its name. -/
def readEnum (options : List α) (name : α → String) (d : Datum) : Reading α :=
  match d with
  | .text s =>
    match options.find? fun o => name o == s with
    | some o => .ok o
    | none => .fault (.notInEnum (options.map name))
  | _ => .fault (.notInEnum (options.map name))

/-- One of a few fixed words. -/
def readLiteral (options : List α) (name : α → String) (d : Datum) : Reading α :=
  match d with
  | .text s =>
    match options.find? fun o => name o == s with
    | some o => .ok o
    | none => .fault (.notALiteral (options.map name))
  | _ => .fault (.notALiteral (options.map name))

/-! ## Composites -/

/-- Null, or what `read` reads. -/
def readOptional (read : Datum → Reading α) : Datum → Reading (Option α)
  | .null => .ok none
  | d => (read d).map some

def readList (read : Datum → Reading α) : Datum → Reading (List α)
  | .sequence items =>
    Reading.all (items.mapIdx fun i d => (read d).within (.index i))
  | _ => .fault .listType

/-- The step of a path that a key makes. -/
def keyStep : Datum → PathStep
  | .text s => .key s
  | .int n => if -wordLimit ≤ n ∧ n < wordLimit then .index n else .key (toString n)
  | .bool b => .index (if b then 1 else 0)
  | .null => .key "None"
  | .real x => .key x.text
  | d => .key d.typeName

/-- An entry of a mapping of texts. -/
def readTextEntry (entry : Datum × Datum) : Reading (String × String) :=
  Reading.both (((readText entry.1).within (.key "[key]")).within (keyStep entry.1))
    ((readText entry.2).within (keyStep entry.1))

/-- A mapping from texts to texts. -/
def readTexts : Datum → Reading (Ordered String)
  | .mapping entries => Reading.all (entries.map readTextEntry)
  | _ => .fault .dictType

end Datum

/-! ## Records -/

/-- A reader of a mapping: the keys that it used, and what it read. -/
def RecordReader (α : Type) := List (Datum × Datum) → List String × Reading α

namespace RecordReader

variable {α β : Type}

/-- Reads nothing. -/
def const (a : α) : RecordReader α := fun _ => ([], .ok a)

/-- Reads one more field and passes it on. -/
def field (f : RecordReader (α → β)) (x : RecordReader α) : RecordReader β := fun entries =>
  let (used, f) := f entries
  let (used', x) := x entries
  (used ++ used', (Reading.both f x).map fun (f, a) => f a)

/-- Reads the field under the first of its spellings that is present; `absent` when none is. -/
def spelled (names : List String) (read : Datum → Reading α) (absent : Reading α) :
    RecordReader α := fun entries =>
  match names.findSome? fun n => (Datum.lookup? entries n).map fun d => (n, d) with
  | some (n, d) => ([n], (read d).within (.key n))
  | none => ([], absent)

/-- A field that must be present. -/
def required (names : List String) (read : Datum → Reading α) : RecordReader α :=
  spelled names read ((Reading.fault .missing).within (.key (names.headD "")))

/-- A field with a value for when it is absent. -/
def withDefault (names : List String) (read : Datum → Reading α) (default : α) : RecordReader α :=
  spelled names read (.ok default)

/-- A field that may be absent or null. -/
def optional (names : List String) (read : Datum → Reading α) : RecordReader (Option α) :=
  withDefault names (Datum.readOptional read) none

/-- The fault of a key that no field used. -/
def extraFault? (used : List String) (key : Datum) : Option Fault :=
  match key with
  | .text s => if used.contains s then none else some ⟨[.key s], .extraForbidden⟩
  | k => some ⟨[k.keyStep], .invalidKey⟩

/-- Reads a mapping as a part of a document. When `strict`, keys that no field used are faults.
A law of the whole part is checked once all of its fields are right. -/
def read (r : RecordReader α) (model : String) (strict : Bool)
    (law : α → Option DocumentLaw) (d : Datum) : Reading α :=
  match d with
  | .mapping entries =>
    let (used, result) := r entries
    -- Keys that nothing used are reported after the fields, in the order of the document.
    let extras := if strict then entries.filterMap fun (k, _) => extraFault? used k else []
    match result with
    | .error faults => .error (faults ++ extras)
    | .ok a =>
      -- A law is about the part as a whole, so it is not asked before all else is right.
      if extras.isEmpty then
        match law a with
        | some broken => .fault (.law broken)
        | none => .ok a
      else .error extras
  | _ => .fault (.modelType model)

end RecordReader

end Formwork
