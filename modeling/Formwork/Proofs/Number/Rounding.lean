import Formwork.Proofs.Number.Range

/-!
# The double that an integer is compared as

An integer below the overflow bound has the double that stands for `Binary64.nearest`, and of the
integers that a double can stand for none is nearer to it (`nearest_le`). That alone keeps the
order: of two integers the greater one is never rounded below the other (`nearest_mono`). And an
integer that is a double's already is not changed, so that nothing is lost up to `2^53`.

From the overflow bound on there is an infinity if anything, which is compared like the first power
of two past the doubles. So doubles of integers are compared like the integers
`Binary64.clamped` makes of them.
-/

namespace Formwork.Binary64

/-- The integer that the nearest double to an integer stands for, with no bound on the exponent. -/
def nearest (n : Int) : Int := if n < 0 then -rounded n.natAbs else rounded n.natAbs

/-- The integer has a significand of 53 bits. -/
def Representable (m : Int) : Prop := ∃ k e : Nat, k ≤ 2 ^ precision ∧ m.natAbs = k * 2 ^ e

/-- The double of an integer, infinite for one past the largest double. -/
def ofInteger (n : Int) : Binary64 := ofFraction (decide (n < 0)) n.natAbs 1

/-- The integer that the double of an integer is compared like: the nearest one, and for an infinity
the first power of two past the doubles. -/
def clamped (n : Int) : Int := max (-2 ^ overflowExponent) (min (2 ^ overflowExponent) (nearest n))

/-- A double is compared like an integer. -/
inductive ComparesLike : Binary64 → Int → Prop
  | finite {m : Int} (hlow : -2 ^ overflowExponent < m) (hhigh : m < 2 ^ overflowExponent) :
      ComparesLike (.finite (Dyadic.ofInt m)) m
  | below : ComparesLike (.infinity true) (-2 ^ overflowExponent)
  | above : ComparesLike (.infinity false) (2 ^ overflowExponent)

end Formwork.Binary64

namespace Formwork.Proofs

open Formwork Binary64

/-! ## Quotients -/

/-- No multiple of the step is nearer than the rounded quotient times the step. -/
theorem divRound_nearest {n d : Nat} (hd : 0 < d) (j : Nat) :
    ((n : Int) - (divRound n d * d : Nat)).natAbs ≤ ((n : Int) - (j * d : Nat)).natAbs := by
  have hsplit : n / d * d + n % d = n := Nat.div_add_mod' n d
  have hrest : n % d < d := Nat.mod_lt _ hd
  -- the multiple is not between the two around the number
  have hside : j * d ≤ n / d * d ∨ n / d * d + d ≤ j * d := by
    rcases Nat.lt_or_ge (n / d) j with hj | hj
    · exact .inr (Nat.succ_mul .. ▸ Nat.mul_le_mul_right d hj)
    · exact .inl (Nat.mul_le_mul_right d hj)
  have hnext : (n / d + 1) * d = n / d * d + d := Nat.succ_mul ..
  have heven : n / d % 2 = 0 ∨ n / d % 2 = 1 := Nat.mod_two_eq_zero_or_one _
  unfold divRound
  dsimp only
  split
  · omega
  · split
    · omega
    · -- a tie
      rcases heven with h | h
      · rw [h, Nat.add_zero]
        omega
      · rw [h]
        omega

theorem divRound_le_of_lt {n d bound : Nat} (hd : 0 < d) (h : n < bound * d) :
    divRound n d ≤ bound := by
  have hquot : n / d < bound := (Nat.div_lt_iff_lt_mul hd).mpr h
  unfold divRound
  dsimp only
  split <;> [skip; split] <;> omega

/-! ## Natural numbers -/

theorem rounded_representable (n : Nat) : Representable (rounded n) := by
  have hlt : n < 2 ^ (n.log2 + 1) := Nat.lt_log2_self
  unfold rounded Representable
  rw [Int.natAbs_natCast, precision]
  split
  · have hbound : 2 ^ (n.log2 + 1) ≤ 2 ^ 53 := two_pow_le (by omega)
    exact ⟨n, 0, by omega, by simp⟩
  · refine ⟨divRound n (2 ^ (n.log2 - 52)), n.log2 - 52, ?_, rfl⟩
    refine divRound_le_of_lt (Nat.two_pow_pos _) ?_
    rwa [← Nat.pow_add, show 53 + (n.log2 - 52) = n.log2 + 1 by omega]

/-- Of the numbers that a double can stand for none is nearer than the one that a natural number is
rounded to. -/
theorem rounded_nearest {n m : Nat} (hm : Representable m) :
    ((n : Int) - rounded n).natAbs ≤ ((n : Int) - m).natAbs := by
  obtain ⟨k, e, hk, hm⟩ := hm
  rw [Int.natAbs_natCast] at hm
  unfold rounded
  split
  · simp
  · rename_i hlog
    obtain ⟨step, hstep⟩ : ∃ step, n.log2 - 52 = step := ⟨_, rfl⟩
    rw [hstep]
    by_cases he : step ≤ e
    · -- a number with a coarser step is a multiple of the step as well
      have hmultiple : m = k * 2 ^ (e - step) * 2 ^ step := by
        rw [hm, Nat.mul_assoc, ← Nat.pow_add, Nat.sub_add_cancel he]
      rw [hmultiple]
      exact divRound_nearest (Nat.two_pow_pos _) _
    · -- a number with a finer step is below all that are rounded by the step, and so is a multiple
      have hlow : 2 ^ 52 * 2 ^ step ≤ n := by
        rw [← Nat.pow_add, show 52 + step = n.log2 by omega]
        exact Nat.log2_self_le (by rintro rfl; exact hlog (by decide))
      have hbelow : m ≤ 2 ^ 52 * 2 ^ step :=
        calc m = k * 2 ^ e := hm
          _ ≤ 2 ^ 53 * 2 ^ e := Nat.mul_le_mul_right _ hk
          _ = 2 ^ (53 + e) := (Nat.pow_add ..).symm
          _ ≤ 2 ^ (52 + step) := two_pow_le (by omega)
          _ = 2 ^ 52 * 2 ^ step := Nat.pow_add ..
      have hnear := divRound_nearest (n := n) (Nat.two_pow_pos step) (2 ^ 52)
      generalize 2 ^ 52 * 2 ^ step = low at hlow hbelow hnear
      omega

/-! ## Integers -/

theorem representable_neg {m : Int} (h : Representable m) : Representable (-m) := by
  rwa [Representable, Int.natAbs_neg]

theorem nearest_representable (n : Int) : Representable (nearest n) := by
  unfold nearest
  split
  · exact representable_neg (rounded_representable _)
  · exact rounded_representable _

theorem representable_zero : Representable 0 := ⟨0, 0, Nat.zero_le _, rfl⟩

/-- **No integer that a double can stand for is nearer.** -/
theorem nearest_le (n : Int) {m : Int} (hm : Representable m) :
    (n - nearest n).natAbs ≤ (n - m).natAbs := by
  -- a number on the other side of zero is not nearer than zero is
  have habs : Representable m.natAbs := by rwa [Representable, Int.natAbs_natCast]
  have hzero := rounded_nearest (n := n.natAbs) (m := 0) representable_zero
  have hnear := rounded_nearest (n := n.natAbs) habs
  unfold nearest
  split <;> omega

/-- **Rounding keeps the order.** -/
theorem nearest_mono {a b : Int} (h : a ≤ b) : nearest a ≤ nearest b := by
  by_contra hlt
  -- otherwise both lie on the midpoint, and are the same
  have ha := nearest_le a (nearest_representable b)
  have hb := nearest_le b (nearest_representable a)
  have heq : a = b := by omega
  rw [heq] at hlt
  omega

theorem nearest_of_representable {n : Int} (h : Representable n) : nearest n = n := by
  have hnear := nearest_le n h
  omega

/-- An integer up to `2^53` is not changed. -/
theorem nearest_of_le {n : Int} (h : n.natAbs ≤ 2 ^ precision) : nearest n = n :=
  nearest_of_representable ⟨n.natAbs, 0, h, by simp⟩

/-- Nothing is lost in a comparison with an integer below `2^53`. -/
theorem nearest_le_nearest_iff {a b : Int}
    (h : a.natAbs < 2 ^ precision ∨ b.natAbs < 2 ^ precision) :
    nearest a ≤ nearest b ↔ a ≤ b := by
  refine ⟨fun hle => ?_, nearest_mono⟩
  by_contra hlt
  -- the integer next to the small one on the side of the other is a double's as well
  rcases h with ha | hb
  · have hself := nearest_of_le (Nat.le_of_lt ha)
    have hnext := nearest_of_le (n := a - 1) (by omega)
    have hmono := nearest_mono (a := b) (b := a - 1) (by omega)
    omega
  · have hself := nearest_of_le (Nat.le_of_lt hb)
    have hnext := nearest_of_le (n := b + 1) (by omega)
    have hmono := nearest_mono (a := b + 1) (b := a) (by omega)
    omega

/-! ## Doubles -/

/-- Rounding is past the doubles from the overflow bound on. -/
theorem rounded_lt_iff {n : Nat} : rounded n < 2 ^ overflowExponent ↔ n < leastOverflow := by
  by_cases hn : n = 0
  · rw [hn]
    exact iff_of_true (by decide +kernel) (by decide +kernel)
  · have hbound : 2 ^ overflowExponent ≤ rounded n ↔ leastOverflow ≤ n :=
      @two_pow_le_rounded_iff _ _ (overflowExponent - 1) _ hn rfl rfl
    rw [← Nat.not_le, ← Nat.not_le, hbound]

theorem natAbs_nearest_lt_iff {n : Int} :
    (nearest n).natAbs < 2 ^ overflowExponent ↔ n.natAbs < leastOverflow := by
  have habs : (nearest n).natAbs = rounded n.natAbs := by
    unfold nearest
    split <;> omega
  rw [habs, rounded_lt_iff]

/-- Comparing with an integer below `2^53` loses nothing. -/
theorem clamped_le_clamped_iff {a b : Int}
    (h : a.natAbs < 2 ^ precision ∨ b.natAbs < 2 ^ precision) :
    clamped a ≤ clamped b ↔ a ≤ b := by
  have hsmall : ((2 ^ precision : Nat) : Int) ≤ 2 ^ overflowExponent := by
    exact_mod_cast two_pow_le (a := precision) (b := overflowExponent) (by decide)
  rw [← nearest_le_nearest_iff h]
  unfold clamped
  rcases h with ha | hb
  · rw [nearest_of_le (Nat.le_of_lt ha)]
    omega
  · rw [nearest_of_le (Nat.le_of_lt hb)]
    omega

theorem clamped_mono {a b : Int} (h : a ≤ b) : clamped a ≤ clamped b :=
  max_le_max le_rfl (min_le_min le_rfl (nearest_mono h))

/-- Rounding keeps the sign. -/
theorem nearest_neg_iff {n : Int} : nearest n < 0 ↔ n < 0 := by
  have hzero : nearest 0 = 0 := nearest_of_representable representable_zero
  have hone : nearest (-1) = -1 := nearest_of_le (by decide)
  constructor
  · intro h
    by_contra hle
    have := nearest_mono (Int.not_lt.mp hle)
    omega
  · intro h
    have := nearest_mono (a := n) (b := -1) (by omega)
    omega

theorem dyadic_eq_iff {a b : Int} : Dyadic.ofInt a = Dyadic.ofInt b ↔ a = b := by
  rw [← Dyadic.toRat_inj]
  show (a : Dyadic).toRat = (b : Dyadic).toRat ↔ _
  rw [Dyadic.toRat_intCast, Dyadic.toRat_intCast, Rat.intCast_inj]

theorem neg_ofInt (n : Int) : -Dyadic.ofInt n = Dyadic.ofInt (-n) := by
  rw [← Dyadic.toRat_inj, Dyadic.toRat_neg]
  show -(n : Dyadic).toRat = ((-n : Int) : Dyadic).toRat
  rw [Dyadic.toRat_intCast, Dyadic.toRat_intCast]
  push_cast
  rfl

section Doubles

variable {n : Int}

theorem roundMagnitude?_eq_some (h : n.natAbs < leastOverflow) :
    roundMagnitude? n.natAbs 1 = some (Dyadic.ofInt (rounded n.natAbs)) := by
  by_cases hn : n.natAbs = 0
  · rw [hn]
    rfl
  · rw [roundMagnitude?_one hn, if_pos (rounded_lt_iff.mpr h)]

/-- **The double of an integer stands for the nearest one.** -/
theorem ofInteger_eq_finite (h : n.natAbs < leastOverflow) :
    ofInteger n = .finite (Dyadic.ofInt (nearest n)) := by
  rw [ofInteger, ofFraction, roundMagnitude?_eq_some h]
  dsimp only
  unfold nearest
  by_cases hsign : n < 0
  · -- no integer below zero is rounded to zero
    have hneg := nearest_neg_iff.mpr hsign
    rw [nearest, if_pos hsign] at hneg
    have hne : Dyadic.ofInt (rounded n.natAbs) ≠ 0 := fun hzero => by
      have := dyadic_eq_iff (b := 0) |>.mp hzero
      omega
    rw [if_pos (decide_eq_true hsign), if_neg hne, if_pos hsign, neg_ofInt]
  · rw [if_neg (by simpa using hsign), if_neg hsign]

theorem ofInteger_eq_infinity (h : leastOverflow ≤ n.natAbs) :
    ofInteger n = .infinity (decide (n < 0)) := by
  have hnone := Option.map_eq_none_iff.mp (ofInt?_eq_none_iff.mpr h)
  rw [ofInteger, ofFraction, hnone]

theorem ofInt?_eq_some (h : n.natAbs < leastOverflow) : ofInt? n = some (ofInteger n) := by
  rw [ofInteger_eq_finite h, ofInt?, roundMagnitude?_eq_some h, Option.map_some, nearest]
  split
  · rw [neg_ofInt]
  · rfl

theorem clamped_of_lt (h : n.natAbs < leastOverflow) : clamped n = nearest n := by
  have hlt : ((nearest n).natAbs : Int) < 2 ^ overflowExponent := by
    exact_mod_cast natAbs_nearest_lt_iff.mpr h
  unfold clamped
  omega

/-- **The double of an integer is compared like the nearest one**, or like the bound that this is
past. -/
theorem ofInteger_comparesLike (n : Int) : ComparesLike (ofInteger n) (clamped n) := by
  have hpos : (0 : Int) < 2 ^ overflowExponent := Int.pow_pos (by decide)
  have hbound : ((nearest n).natAbs : Int) < 2 ^ overflowExponent ↔ n.natAbs < leastOverflow := by
    exact_mod_cast natAbs_nearest_lt_iff
  rcases Nat.lt_or_ge n.natAbs leastOverflow with h | h
  · have hlt := hbound.mpr h
    rw [ofInteger_eq_finite h, clamped_of_lt h]
    exact .finite (by omega) (by omega)
  · have hle := Int.not_lt.mp fun hlt => Nat.not_lt.mpr h (hbound.mp hlt)
    have hsign := nearest_neg_iff (n := n)
    rw [ofInteger_eq_infinity h]
    by_cases hn : n < 0
    · have hclamped : clamped n = -2 ^ overflowExponent := by unfold clamped; omega
      rw [decide_eq_true hn, hclamped]
      exact .below
    · have hclamped : clamped n = 2 ^ overflowExponent := by unfold clamped; omega
      rw [decide_eq_false hn, hclamped]
      exact .above

end Doubles

end Formwork.Proofs

/-! ## Comparing -/

namespace Formwork.Binary64.ComparesLike

open Formwork.Proofs

variable {x y : Binary64} {m k : Int}

theorem isNaN (hx : ComparesLike x m) : x.isNaN = false := by
  cases hx <;> rfl

theorem lt (hx : ComparesLike x m) (hy : ComparesLike y k) : x.lt y = decide (m < k) := by
  have hpos : (0 : Int) < 2 ^ overflowExponent := Int.pow_pos (by decide)
  cases hx with
  | finite hlow hhigh =>
      cases hy with
      | finite => exact decide_eq_decide.mpr dyadic_lt_iff
      | below => exact (decide_eq_false (by omega)).symm
      | above => exact (decide_eq_true (by omega)).symm
  | below =>
      cases hy with
      | finite hlow => exact (decide_eq_true (by omega)).symm
      | below => exact (decide_eq_false (by omega)).symm
      | above => exact (decide_eq_true (by omega)).symm
  | above =>
      cases hy with
      | finite _ hhigh => exact (decide_eq_false (by omega)).symm
      | below => exact (decide_eq_false (by omega)).symm
      | above => exact (decide_eq_false (by omega)).symm

theorem same (hx : ComparesLike x m) (hy : ComparesLike y k) : x.same y = decide (m = k) := by
  have hpos : (0 : Int) < 2 ^ overflowExponent := Int.pow_pos (by decide)
  cases hx with
  | finite hlow hhigh =>
      cases hy with
      | finite => exact decide_eq_decide.mpr dyadic_eq_iff
      | below => exact (decide_eq_false (by omega)).symm
      | above => exact (decide_eq_false (by omega)).symm
  | below =>
      cases hy with
      | finite hlow => exact (decide_eq_false (by omega)).symm
      | below => exact (decide_eq_true rfl).symm
      | above => exact (decide_eq_false (by omega)).symm
  | above =>
      cases hy with
      | finite _ hhigh => exact (decide_eq_false (by omega)).symm
      | below => exact (decide_eq_false (by omega)).symm
      | above => exact (decide_eq_true rfl).symm

theorem le (hx : ComparesLike x m) (hy : ComparesLike y k) : x.le y = decide (m ≤ k) := by
  rw [Binary64.le, hx.lt hy, hx.same hy, ← Bool.decide_or]
  exact decide_eq_decide.mpr Int.le_iff_lt_or_eq.symm

end Formwork.Binary64.ComparesLike
