import Formwork.Calendar.Date
import Formwork.Text.Blank

/-!
# Dates in ISO 8601 notation

A date is written as year, month and day, or as year, week and day of the week, with hyphens
throughout or none. A time of day may follow after any one character. It is read for its form and
its ranges, and then left out.

The notation is read byte by byte, and past the end stands the byte zero.
-/

namespace Formwork.Iso

open Formwork.Text

/-- The bytes of a text. -/
abbrev Bytes := Array UInt8

/-- The byte at a position. -/
def byteAt (b : Bytes) (i : Nat) : Nat := (b[i]?.map UInt8.toNat).getD 0

/-- Whether a character stands at a position. -/
def isAt (b : Bytes) (i : Nat) (c : Char) : Bool := byteAt b i == c.toNat

/-- The value of the digit at a position. -/
def digitAt? (b : Bytes) (i : Nat) : Option Nat :=
  let n := byteAt b i
  if 48 ≤ n ∧ n ≤ 57 then some (n - 48) else none

/-- The number that `count` digits stand for. -/
def number? (b : Bytes) (i : Nat) : (count : Nat) → Option Nat
  | 0 => some 0
  | count + 1 => do
    let high ← number? b i count
    let d ← digitAt? b (i + count)
    some (10 * high + d)

/-- The first position from `i` on that holds no digit, at most `fuel` further. -/
def skipDigits (b : Bytes) : (fuel : Nat) → Nat → Nat
  | 0, i => i
  | fuel + 1, i => if (digitAt? b i).isSome then skipDigits b fuel (i + 1) else i

/-! ## Weeks -/

/-- The day of the week, counted from Monday, which is 0. -/
def weekday (d : Date) : Nat := (d.ordinal + 6) % 7

/-- Whether a year has 53 weeks: it begins on a Thursday, or on a Wednesday and is a leap year. -/
def hasLongCalendar (y : Nat) : Bool :=
  let first := weekday ⟨y, 1, 1⟩
  first == 3 || (first == 2 && isLeapYear y)

/-- The number of days of a year. -/
def yearLength (y : Nat) : Nat := if isLeapYear y then 366 else 365

/-- The date of a day of a week. The first week of a year is the one that holds its first
Thursday. -/
def ofWeek? (y week day : Nat) : Option Date :=
  if y < 1 || week < 1 || 53 < week || (week == 53 && !hasLongCalendar y) || day < 1 || 7 < day then
    none
  else
    let first := weekday ⟨y, 1, 1⟩
    -- The day of the year of the first Monday, plus seven to stay positive.
    let monday := 8 - first + (if 3 < first then 7 else 0)
    let n := monday + (week - 1) * 7 + (day - 1)
    let date :=
      if n ≤ 7 then Date.ofDayOfYear (y - 1) (yearLength (y - 1) + n - 7)
      else if yearLength y < n - 7 then Date.ofDayOfYear (y + 1) (n - 7 - yearLength y)
      else Date.ofDayOfYear y (n - 7)
    (Date.make date.year date.month date.day).toOption

/-! ## Dates -/

/-- The position after the date: where the notation that begins like this ends. -/
def dateEnd? (b : Bytes) : Option Nat :=
  let size := b.size
  if size == 7 then some 7
  else if isAt b 4 '-' then
    if isAt b 5 'W' then
      if 8 < size && isAt b 8 '-' then
        if size == 9 then none
        else if 10 < size && (digitAt? b 10).isSome then some 8
        else some 10
      else some 8
    else some 10
  else if isAt b 4 'W' then
    let stop := skipDigits b (size - 7) 7
    if stop < 9 then some stop
    else if stop % 2 == 0 then some 7
    else some 8
  else some 8

/-- The date that ends at a position. -/
def date? (b : Bytes) (stop : Nat) : Option Date := do
  let year ← number? b 0 4
  let hyphens := isAt b 4 '-'
  let i := if hyphens then 5 else 4
  if isAt b i 'W' then
    let week ← number? b (i + 1) 2
    let i := i + 3
    if i < stop then
      guard (!hyphens || isAt b i '-')
      let day ← number? b (if hyphens then i + 1 else i) 1
      ofWeek? year week day
    else ofWeek? year week 1
  else
    let month ← number? b i 2
    let i := i + 2
    guard (!hyphens || isAt b i '-')
    let day ← number? b (if hyphens then i + 1 else i) 2
    (Date.make year month day).toOption

/-! ## Times -/

/-- A time of day or an offset from it. -/
structure Clock where
  hour : Nat
  minute : Nat
  second : Nat
  microsecond : Nat

/-- A time with the parts that were read, and the others zero. -/
def Clock.ofParts (parts : List Nat) (microsecond : Nat) : Clock :=
  ⟨parts[0]?.getD 0, parts[1]?.getD 0, parts[2]?.getD 0, microsecond⟩

/-- The fraction of a second between two positions, and whether something is left after it. -/
def fraction? (b : Bytes) (parts : List Nat) (i stop : Nat) : Option (Clock × Bool) := do
  let count := min (stop - i) 6
  let n ← number? b i count
  let after := skipDigits b b.size (i + count)
  some (.ofParts parts (n * Nat.pow 10 (6 - count)), byteAt b after != 0)

/-- The parts of a time between two positions, and whether something is left after it. Colons stand
between all parts or none. -/
def parts? (b : Bytes) (stop : Nat) :
    (left : Nat) → (parts : List Nat) → (colons : Option Bool) → Nat → Option (Clock × Bool)
  | 0, parts, _, i => fraction? b parts i stop
  | left + 1, parts, colons, i => do
    let n ← number? b i 2
    let parts := parts ++ [n]
    let colon := isAt b (i + 2) ':'
    let colons := colons.getD colon
    if stop ≤ i + 3 then some (.ofParts parts 0, byteAt b (i + 2) != 0)
    else if colons && colon then parts? b stop left parts (some colons) (i + 3)
    else if isAt b (i + 2) '.' || isAt b (i + 2) ',' then fraction? b parts (i + 3) stop
    else if !colons then parts? b stop left parts (some colons) (i + 2)
    else none

/-- A time between two positions. -/
def clock? (b : Bytes) (start stop : Nat) : Option (Clock × Bool) := parts? b stop 3 [] none start

/-- Whether a position holds the beginning of a zone. -/
def isZoneMark (b : Bytes) (i : Nat) : Bool := isAt b i '+' || isAt b i '-' || isAt b i 'Z'

/-- The position of the zone, or the end. -/
def zoneStart (b : Bytes) : (fuel : Nat) → Nat → Nat
  | 0, i => i
  | fuel + 1, i => if isZoneMark b i then i else zoneStart b fuel (i + 1)

/-- Whether an offset is less than a day. -/
def Clock.isOffset (c : Clock) : Bool :=
  let seconds := c.hour * 3600 + c.minute * 60 + c.second
  seconds == 0 || seconds * 1000000 + c.microsecond < 86400 * 1000000

/-- Whether a time lies within a day. -/
def Clock.isTime (c : Clock) : Bool := c.hour < 24 && c.minute < 60 && c.second < 60

/-- Whether a time with or without a zone stands from a position to the end. -/
def isTime (b : Bytes) (start : Nat) : Bool :=
  let zone := zoneStart b (b.size - start) start
  match clock? b start zone with
  | none => false
  | some (time, rest) =>
    time.isTime &&
      if zone == b.size then !rest
      else if isAt b zone 'Z' then byteAt b (zone + 1) == 0
      else match clock? b (zone + 1) b.size with
        | some (offset, rest) => !rest && offset.isOffset
        | none => false

/-- The number of bytes of the character that begins with this byte. -/
def charSize (byte : Nat) : Nat :=
  if byte < 0x80 then 1 else if byte < 0xE0 then 2 else if byte < 0xF0 then 3 else 4

/-- The date that a text denotes, with or without a time. -/
def parse? (s : String) : Option Date := do
  let t := trimmed s
  guard (7 ≤ t.length)
  let b := t.toUTF8.data
  let stop ← dateEnd? b
  let d ← date? b stop
  guard (b.size ≤ stop || isTime b (stop + charSize (byteAt b stop)))
  some d

end Formwork.Iso
