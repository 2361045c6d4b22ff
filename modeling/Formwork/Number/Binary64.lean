/-!
# Double-precision numbers

A double is kept as the number it stands for: a dyadic rational, exactly, beside the values that
are no number. Equality and order are then those of the rationals, and the only place where
precision is lost is rounding.

* **Rounding** goes to the nearest number with 53 significant bits whose last bit is worth at
  least `2^-1074`; a tie goes to the even neighbour.
* A text that rounds past the largest double reads as infinity; an integer that does so has no
  double at all.
-/

namespace Formwork

/-- A double. `finite` holds every number but the negative zero. -/
inductive Binary64 where
  | nan
  | infinity (negative : Bool)
  | negativeZero
  | finite (value : Dyadic)
  deriving DecidableEq

namespace Binary64

/-- Number of significant bits. -/
def precision : Nat := 53

/-- Exponent of the smallest step between doubles. -/
def leastExponent : Int := -1074

/-- The first power of two that is too large for a double. -/
def overflowExponent : Nat := 1024

/-- The number a double stands for. -/
def value? : Binary64 → Option Dyadic
  | .finite v => some v
  | .negativeZero => some 0
  | _ => none

def isNaN : Binary64 → Bool
  | .nan => true
  | _ => false

/-- Whether the double is a number, which infinities are not. -/
def isFinite (x : Binary64) : Bool := x.value?.isSome

/-- Numeric equality: the two zeros are equal, and no double that is not a number equals itself
unless it is an infinity. -/
def same : Binary64 → Binary64 → Bool
  | .infinity a, .infinity b => a == b
  | x, y => match x.value?, y.value? with
    | some v, some w => v == w
    | _, _ => false

/-- Numeric order. What is not a number is neither below nor above anything. -/
def lt : Binary64 → Binary64 → Bool
  | .nan, _ => false
  | _, .nan => false
  | .infinity a, .infinity b => a && !b
  | .infinity a, _ => a
  | _, .infinity b => !b
  | x, y => match x.value?, y.value? with
    | some v, some w => decide (v < w)
    | _, _ => false

/-- Below or equal. -/
def le (x y : Binary64) : Bool := lt x y || same x y

/-- The quotient of two naturals rounded to the nearest natural, a half going to the even one. -/
def divRound (num den : Nat) : Nat :=
  let q := num / den
  let r := num % den
  if 2 * r < den then q
  else if den < 2 * r then q + 1
  else q + q % 2

/-- `n · 2^k` as a fraction of naturals. -/
def scaleByTwo (num den : Nat) (k : Int) : Nat × Nat :=
  if 0 ≤ k then (num * Nat.pow 2 k.toNat, den) else (num, den * Nat.pow 2 (-k).toNat)

/-- The largest `k` with `2^k ≤ num / den`, for positive `num` and `den`. -/
def floorLog2 (num den : Nat) : Int :=
  let k : Int := (num.log2 : Int) - den.log2
  let (n, d) := scaleByTwo num den (-k)
  if d ≤ n then k else k - 1

/-- The exponent of the step between doubles near `num / den`. -/
def stepExponent (num den : Nat) : Int :=
  max (floorLog2 num den - (precision - 1)) leastExponent

/-- The nearest double to `num / den` if it is below the overflow bound. -/
def roundMagnitude? (num den : Nat) : Option Dyadic :=
  if num = 0 then some 0
  else
    -- In units of the step the fraction is below `2^53`, and `2^53` is a double too.
    let e := stepExponent num den
    let (n, d) := scaleByTwo num den (-e)
    let v := Dyadic.ofIntWithPrec (divRound n d) (-e)
    if v < Dyadic.ofInt (Nat.pow 2 overflowExponent) then some v else none

/-- The nearest double to `± num / den`, infinite past the largest one. -/
def ofFraction (negative : Bool) (num den : Nat) : Binary64 :=
  match roundMagnitude? num den with
  | none => .infinity negative
  | some v =>
    if negative then
      -- Too small a number keeps its sign.
      if v = 0 then .negativeZero else .finite (-v)
    else .finite v

/-- The nearest double to an integer, when there is one. -/
def ofInt? (n : Int) : Option Binary64 :=
  (roundMagnitude? n.natAbs 1).map fun v => .finite (if n < 0 then -v else v)

/--
The nearest double to `± digits · 10^exponent`. Exponents far outside the range of doubles are
answered without computing the power.
-/
def ofDecimal (negative : Bool) (digits : Nat) (exponent : Int) : Binary64 :=
  -- The number is below `10^size`, and not below a tenth of it.
  let size : Int := (Nat.toDigits 10 digits).length + exponent
  if digits = 0 || size < -330 then ofFraction negative 0 1
  else if 310 < size then .infinity negative
  else if 0 ≤ exponent then ofFraction negative (digits * Nat.pow 10 exponent.toNat) 1
  else ofFraction negative digits (Nat.pow 10 (-exponent).toNat)

/-- The integer nearest towards zero, of a number. -/
def truncate? (x : Binary64) : Option Int :=
  x.value?.map fun v =>
    let q := v.toRat
    Int.tdiv q.num q.den

/-- The integer a double stands for, when it stands for one. -/
def toInt? (x : Binary64) : Option Int :=
  x.value?.bind fun v =>
    let q := v.toRat
    if q.den = 1 then some q.num else none

end Binary64

end Formwork
