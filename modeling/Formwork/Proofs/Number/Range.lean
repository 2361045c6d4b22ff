import Formwork.Number.Binary64
import Mathlib.Data.Rat.Cast.Order
import Mathlib.Tactic.FieldSimp
import Mathlib.Tactic.Push

/-!
# Which integers have a double

An integer is rounded to a multiple of the step between the doubles of its size, and has no
double when that comes to the first power of two past them. So the bound is not that power
but lies half a step below it: the largest double is `2^1024 - 2^971`, and from the midpoint
on an integer is rounded up, since a tie goes to the even neighbour.
-/

namespace Formwork.Binary64

/-- The least magnitude that is rounded past the largest double: `2^1024 - 2^970`. -/
def leastOverflow : Nat := 2 ^ overflowExponent - 2 ^ (overflowExponent - precision - 1)

/-- What a natural number is rounded to, with no bound on the exponent. -/
def rounded (n : Nat) : Nat :=
  if n.log2 ≤ 52 then n else divRound n (2 ^ (n.log2 - 52)) * 2 ^ (n.log2 - 52)

end Formwork.Binary64

namespace Formwork.Proofs

open Formwork Binary64

/-! ## Rounding quotients -/

/-- A quotient is rounded below an even bound when it is more than half under the bound. -/
theorem divRound_lt_iff {num den bound : Nat} (hden : 0 < den) (hbound : bound % 2 = 0) :
    divRound num den < bound ↔ 2 * num + den < 2 * (den * bound) := by
  have hsplit : den * (num / den) + num % den = num := Nat.div_add_mod num den
  have hrest : num % den < den := Nat.mod_lt _ hden
  unfold divRound
  dsimp only
  generalize num / den = q at hsplit ⊢
  generalize num % den = r at hsplit hrest ⊢
  have hnext : den * (q + 1) = den * q + den := Nat.mul_succ den q
  -- the rounded quotient is `q` or `q + 1`, so only a bound of `q + 1` is a close call
  rcases Nat.lt_trichotomy (q + 1) bound with hq | rfl | hq
  · have hbelow : den * (q + 2) ≤ den * bound := Nat.mul_le_mul_left den hq
    have hnext' : den * (q + 2) = den * (q + 1) + den := Nat.mul_succ den (q + 1)
    split <;> [skip; split] <;> omega
  · split <;> [skip; split] <;> omega
  · have habove : den * bound ≤ den * q := Nat.mul_le_mul_left den (by omega)
    split <;> [skip; split] <;> omega

theorem div_le_divRound (num den : Nat) : num / den ≤ divRound num den := by
  unfold divRound
  dsimp only
  split <;> [skip; split] <;> omega

theorem divRound_one (n : Nat) : divRound n 1 = n := by
  simp [divRound, Nat.mod_one]

/-! ## Dyadic integers -/

theorem dyadic_lt_iff {a b : Int} : Dyadic.ofInt a < Dyadic.ofInt b ↔ a < b := by
  rw [← Dyadic.toRat_lt_toRat_iff]
  show (a : Dyadic).toRat < (b : Dyadic).toRat ↔ _
  rw [Dyadic.toRat_intCast, Dyadic.toRat_intCast, Rat.intCast_lt_intCast]

/-- So many steps of size `2^s`. -/
theorem ofIntWithPrec_neg (a : Int) (s : Nat) :
    Dyadic.ofIntWithPrec a (-s) = Dyadic.ofInt (a * 2 ^ s) := by
  rw [← Dyadic.toRat_inj]
  show _ = ((a * 2 ^ s : Int) : Dyadic).toRat
  rw [Dyadic.toRat_intCast, Dyadic.toRat_ofIntWithPrec_eq_mul_two_pow, neg_neg, zpow_natCast]
  push_cast
  rfl

/-- An integer in steps of size `2^-s`. -/
theorem ofIntWithPrec_scaled (a : Int) (s : Nat) :
    Dyadic.ofIntWithPrec (a * 2 ^ s) s = Dyadic.ofInt a := by
  rw [← Dyadic.toRat_inj]
  show _ = (a : Dyadic).toRat
  rw [Dyadic.toRat_intCast, Dyadic.toRat_ofIntWithPrec_eq_mul_two_pow, zpow_neg, zpow_natCast]
  push_cast
  field_simp

/-! ## Rounding integers -/

theorem floorLog2_one {n : Nat} (hn : n ≠ 0) : floorLog2 n 1 = n.log2 := by
  have hone : Nat.log2 1 = 0 := by decide
  have hself : 2 ^ n.log2 ≤ n := Nat.log2_self_le hn
  unfold floorLog2 scaleByTwo
  simp only [hone, Nat.cast_zero, sub_zero]
  split
  · rw [if_pos (by simp; omega)]
  · rw [neg_neg, Int.toNat_natCast, if_pos (by simpa using hself)]

/-- An integer has a double when what it is rounded to is below the first power of two past them. -/
theorem roundMagnitude?_one {n : Nat} (hn : n ≠ 0) :
    roundMagnitude? n 1 =
      if rounded n < 2 ^ overflowExponent then some (Dyadic.ofInt (rounded n)) else none := by
  have hstep : stepExponent n 1 = n.log2 - 52 := by
    unfold stepExponent precision leastExponent
    rw [floorLog2_one hn]
    omega
  have hvalue : Dyadic.ofIntWithPrec
      (divRound (scaleByTwo n 1 (-stepExponent n 1)).1 (scaleByTwo n 1 (-stepExponent n 1)).2)
      (-stepExponent n 1) = Dyadic.ofInt (rounded n) := by
    rw [hstep]
    unfold rounded scaleByTwo
    split
    · rename_i hlarge
      have hle : n.log2 ≤ 52 := by omega
      obtain ⟨s, hs⟩ : ∃ s : Nat, -((n.log2 : Int) - 52) = s := ⟨52 - n.log2, by omega⟩
      rw [if_pos hle, hs, divRound_one, Int.toNat_natCast, ← ofIntWithPrec_scaled n s]
      simp
    · rename_i hsmall
      have hle : ¬ n.log2 ≤ 52 := by omega
      obtain ⟨s, hs⟩ : ∃ s : Nat, (n.log2 : Int) - 52 = s := ⟨n.log2 - 52, by omega⟩
      have hs' : n.log2 - 52 = s := by omega
      rw [if_neg hle, hs, hs', neg_neg, Int.toNat_natCast, ofIntWithPrec_neg]
      simp
  have hbound : (Dyadic.ofInt (rounded n) < Dyadic.ofInt (Nat.pow 2 overflowExponent)) ↔
      rounded n < 2 ^ overflowExponent := by
    rw [dyadic_lt_iff, Int.ofNat_lt, Nat.pow_eq]
  unfold roundMagnitude?
  rw [if_neg hn]
  dsimp only
  rw [hvalue]
  simp only [hbound]

theorem two_pow_le {a b : Nat} (h : a ≤ b) : 2 ^ a ≤ 2 ^ b := Nat.pow_le_pow_right (by decide) h

/-- A natural number is rounded past a power of two from half a step below it on. -/
theorem two_pow_le_rounded_iff {n top half unit : Nat} (hn : n ≠ 0) (htop : top = half + 1)
    (hunit : half = unit + 53) : 2 ^ top ≤ rounded n ↔ 2 ^ top - 2 ^ unit ≤ n := by
  -- exponents are kept as variables, since no power of this size is to be computed
  obtain ⟨log, hlog⟩ : ∃ log, n.log2 = log := ⟨_, rfl⟩
  obtain ⟨next, hnext⟩ : ∃ next, log + 1 = next := ⟨_, rfl⟩
  have hself : 2 ^ log ≤ n := hlog ▸ Nat.log2_self_le hn
  have hlt : n < 2 ^ next := hnext ▸ hlog ▸ Nat.lt_log2_self
  have hdouble : 2 ^ top = 2 ^ half * 2 := by rw [htop, Nat.pow_succ]
  have hhalf : 2 ^ unit ≤ 2 ^ half := two_pow_le (by omega)
  unfold rounded
  rw [hlog]
  split
  · -- below the step size nothing is rounded, and nothing is near the power of two
    have hsmall : 2 ^ next ≤ 2 ^ half := two_pow_le (by omega)
    omega
  · obtain ⟨step, hstep⟩ : ∃ step, log - 52 = step := ⟨_, rfl⟩
    obtain ⟨below, hbelow⟩ : ∃ below, step = below + 1 := ⟨step - 1, by omega⟩
    have hstep' : 2 ^ step = 2 ^ below * 2 := by rw [hbelow, Nat.pow_succ]
    rw [hstep]
    by_cases hfits : below ≤ unit
    · -- the power of two is an even number of steps
      obtain ⟨steps, hsteps⟩ : ∃ steps, steps + 1 + step = top := ⟨top - step - 1, by omega⟩
      have hsplit : 2 ^ top = 2 ^ step * 2 ^ (steps + 1) := by
        rw [← Nat.pow_add, Nat.add_comm, hsteps]
      have heven : 2 ^ (steps + 1) % 2 = 0 := by
        rw [Nat.pow_succ, Nat.mul_mod_left]
      have hround : divRound n (2 ^ step) * 2 ^ step < 2 ^ top ↔
          2 * n + 2 ^ step < 2 * 2 ^ top := by
        rw [hsplit, Nat.mul_comm (divRound _ _), Nat.mul_lt_mul_left (Nat.two_pow_pos _)]
        exact divRound_lt_iff (Nat.two_pow_pos _) heven
      rcases Nat.eq_or_lt_of_le hfits with rfl | hless
      · omega
      · have hsmall : 2 ^ next ≤ 2 ^ half := two_pow_le (by omega)
        have hfine : 2 ^ below ≤ 2 ^ unit := two_pow_le hfits
        omega
    · have hlarge : 2 ^ top ≤ 2 ^ log := two_pow_le (by omega)
      have hquot : 2 ^ 52 ≤ divRound n (2 ^ step) := by
        refine Nat.le_trans ?_ (div_le_divRound ..)
        rw [Nat.le_div_iff_mul_le (Nat.two_pow_pos _), ← Nat.pow_add]
        exact (two_pow_le (by omega)).trans hself
      have hrounded := Nat.mul_le_mul_right (2 ^ step) hquot
      rw [← Nat.pow_add, show 52 + step = log by omega] at hrounded
      exact iff_of_true (hlarge.trans hrounded) ((Nat.sub_le ..).trans (hlarge.trans hself))

/-- **An integer has no double exactly from the least overflow on.** -/
theorem ofInt?_eq_none_iff {n : Int} : ofInt? n = none ↔ leastOverflow ≤ n.natAbs := by
  unfold ofInt?
  rw [Option.map_eq_none_iff]
  by_cases hn : n.natAbs = 0
  · rw [hn]
    refine iff_of_false nofun ?_
    have hpos : 0 < leastOverflow := by decide +kernel
    exact Nat.not_le_of_lt hpos
  · have hbound : 2 ^ overflowExponent ≤ rounded n.natAbs ↔ leastOverflow ≤ n.natAbs :=
      @two_pow_le_rounded_iff _ _ (overflowExponent - 1) _ hn rfl rfl
    rw [roundMagnitude?_one hn, ← hbound]
    split
    · rename_i hlt
      exact iff_of_false nofun (Nat.not_le_of_lt hlt)
    · rename_i hle
      exact iff_of_true rfl (Nat.le_of_not_lt hle)

end Formwork.Proofs
