import Formwork.Number.Binary64

/-!
# Shortest decimal text of a double

Many decimals round to one double. Its text is the shortest of them, and of two equally short ones
the nearer. For each count of digits, from one upwards, only the two neighbours of the double on
the grid of decimals with that many digits have to be tried: if any decimal of the grid rounds to
the double, one of these two does.
-/

namespace Formwork.Binary64

/--
The decimals that round to a positive double, as multiples of `unitNum / unitDen`: from `low` to
`high`, with the ends when `closed`; `mid` is the double itself.
-/
structure RoundingInterval where
  low : Nat
  mid : Nat
  high : Nat
  closed : Bool
  unitNum : Nat
  unitDen : Nat

/-- The interval of a positive double. Just above a power of two the lower half is narrower. -/
def roundingInterval (num den : Nat) : RoundingInterval :=
  let e := stepExponent num den
  let (n, d) := scaleByTwo num den (-e)
  let m := n / d
  let narrow := m == Nat.pow 2 (precision - 1) && leastExponent < e
  let (unitNum, unitDen) := scaleByTwo 1 1 (e - 2)
  { low := if narrow then 4 * m - 1 else 4 * m - 2
    mid := 4 * m
    high := 4 * m + 2
    closed := m % 2 == 0
    unitNum, unitDen }

/-- `n · 10^p` as a fraction of naturals. -/
def scaleByTen (n : Nat) (p : Int) : Nat × Nat :=
  if 0 ≤ p then (n * Nat.pow 10 p.toNat, 1) else (n, Nat.pow 10 (-p).toNat)

namespace RoundingInterval

/-- Whether `c · 10^p` rounds to the double. -/
def holds (i : RoundingInterval) (c : Nat) (p : Int) : Bool :=
  let (n, d) := scaleByTen c p
  let x := n * i.unitDen
  let unit := i.unitNum * d
  if i.closed then i.low * unit ≤ x && x ≤ i.high * unit
  else i.low * unit < x && x < i.high * unit

/-- The number of decimal places before the point, which is negative for small numbers. -/
def magnitude (i : RoundingInterval) : Int :=
  (Nat.toDigits 10 (i.mid * i.unitNum * Nat.pow 10 400 / i.unitDen)).length - 400

/-- The shortest decimal `c · 10^p` with `count` digits or more, up to `count + fuel`. -/
def shortestFrom (i : RoundingInterval) : (fuel : Nat) → (count : Nat) → Nat × Int
  | fuel, count =>
    let p := i.magnitude - count
    let (unit, scale) := scaleByTen 1 p
    let below := i.mid * i.unitNum * scale / (i.unitDen * unit)
    let above := below + 1
    let (x, w) := (2 * i.mid * i.unitNum * scale, i.unitDen * unit)
    let middle := (below + above) * w
    -- Of two that both round to the double the nearer is taken, of a tie the even one.
    match i.holds below p, i.holds above p, fuel with
    | true, false, _ => (below, p)
    | false, true, _ => (above, p)
    | true, true, _ =>
      if x < middle then (below, p)
      else if middle < x then (above, p)
      else (below + below % 2, p)
    | false, false, 0 => (below, p)
    | false, false, fuel + 1 => shortestFrom i fuel (count + 1)

end RoundingInterval

/-- The shortest decimal of a positive fraction: `(c, p)` for `c · 10^p`. -/
def shortest (num den : Nat) : Nat × Int :=
  (roundingInterval num den).shortestFrom 17 1

/-- Exponents from this one on are written with an exponent mark. -/
def positionalLimit : Int := 16

/-- Exponents below this one are written with an exponent mark. -/
def positionalFloor : Int := -4

/-- Decimal digits with a point `places` after the first digit, and `.0` for a whole number. -/
def positional (digits : List Char) (exponent : Int) : List Char :=
  if exponent < 0 then
    '0' :: '.' :: List.replicate (-exponent - 1).toNat '0' ++ digits
  else
    let whole := exponent.toNat + 1
    let padded := digits ++ List.replicate (whole - digits.length) '0'
    let fraction := padded.drop whole
    padded.take whole ++ '.' :: (if fraction.isEmpty then ['0'] else fraction)

/-- One digit before the point, and a signed exponent of two digits or more. -/
def scientific (digits : List Char) (exponent : Int) : List Char :=
  let exponentDigits := Nat.toDigits 10 exponent.natAbs
  let padded := if exponentDigits.length < 2 then '0' :: exponentDigits else exponentDigits
  let mark := ['e', if exponent < 0 then '-' else '+'] ++ padded
  match digits with
  | [] => mark
  | [d] => d :: mark
  | d :: rest => d :: '.' :: rest ++ mark

/-- The text of a positive number. -/
def magnitudeText (num den : Nat) : List Char :=
  let (c, p) := shortest num den
  let all := Nat.toDigits 10 c
  let exponent := p + all.length - 1
  let digits := (all.reverse.dropWhile (· == '0')).reverse
  if positionalFloor ≤ exponent && exponent < positionalLimit then positional digits exponent
  else scientific digits exponent

/-- The text of a double: its shortest decimal, `nan`, `inf` or `-inf`. -/
def text : Binary64 → String
  | .nan => "nan"
  | .infinity false => "inf"
  | .infinity true => "-inf"
  | .negativeZero => "-0.0"
  | .finite v =>
    let q := v.toRat
    if q.num = 0 then "0.0"
    else
      let magnitude := String.ofList (magnitudeText q.num.natAbs q.den)
      if q.num < 0 then "-" ++ magnitude else magnitude

end Formwork.Binary64
