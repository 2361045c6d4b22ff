/-!
# Calendar dates

Dates of the proleptic Gregorian calendar, from year 1 to year 9999.
-/

namespace Formwork

/-- Whether a year has a leap day. -/
def isLeapYear (y : Nat) : Bool := y % 4 == 0 && (y % 100 != 0 || y % 400 == 0)

/-- The number of days of a month. -/
def daysInMonth (y m : Nat) : Nat :=
  if m == 2 then if isLeapYear y then 29 else 28
  else if [4, 6, 9, 11].contains m then 30
  else 31

/-- A date. -/
structure Date where
  year : Nat
  month : Nat
  day : Nat
  deriving DecidableEq, Repr

namespace Date

/-- What is out of range in a date. -/
inductive Fault where
  | year (y : Nat)
  | month
  | day
  deriving DecidableEq

def Fault.message : Fault → String
  | .year y => "year " ++ toString y ++ " is out of range"
  | .month => "month must be in 1..12"
  | .day => "day is out of range for month"

/-- The date with these parts, if there is one. -/
def make (y m d : Nat) : Except Fault Date :=
  if y < 1 || 9999 < y then .error (.year y)
  else if m < 1 || 12 < m then .error .month
  else if d < 1 || daysInMonth y m < d then .error .day
  else .ok ⟨y, m, d⟩

/-- The number of days before a year, counted from year 1. -/
def daysBeforeYear (y : Nat) : Nat :=
  let p := y - 1
  365 * p + p / 4 - p / 100 + p / 400

/-- The number of days before a month in its year. -/
def daysBeforeMonth (y m : Nat) : Nat :=
  (List.range (m - 1)).foldl (fun n i => n + daysInMonth y (i + 1)) 0

/-- The number of the day, counted from the first day of year 1, which is 1. -/
def ordinal (d : Date) : Nat := daysBeforeYear d.year + daysBeforeMonth d.year d.month + d.day

/-- Order in time. -/
def lt (a b : Date) : Bool := decide (a.ordinal < b.ordinal)

/-- The month and day of the `n`-th day of a year. -/
def ofDayOfYear (y n : Nat) : Date :=
  go 12 1 n
where
  go : Nat → Nat → Nat → Date
    | 0, m, n => ⟨y, m, n⟩
    | fuel + 1, m, n =>
      if n ≤ daysInMonth y m || m == 12 then ⟨y, m, n⟩ else go fuel (m + 1) (n - daysInMonth y m)

/-- The decimal digits of a number, padded with zeros. -/
def padded (width n : Nat) : String :=
  let digits := Nat.toDigits 10 n
  String.ofList (List.replicate (width - digits.length) '0' ++ digits)

/-- A date as text. -/
def text (d : Date) : String := padded 4 d.year ++ "-" ++ padded 2 d.month ++ "-" ++ padded 2 d.day

end Date

end Formwork
