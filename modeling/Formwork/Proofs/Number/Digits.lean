import Formwork.Number.Numeral
import Mathlib.Data.Nat.Digits.Defs

/-!
# Integers with too many digits

An integer of any size is a value, but only one with few enough digits is shown. In terms of its
size, it is one below a power of ten (`isWritable_iff`).
-/

namespace Formwork

/-- An integer with more digits than are shown. -/
def TooLongToShow (n : Int) : Prop := 10 ^ Numeral.maxDigits ≤ n.natAbs

/-- The least natural number with more digits than are shown. -/
def leastTooLong : Nat := 10 ^ Numeral.maxDigits

end Formwork

namespace Formwork.Proofs

open Formwork

theorem ofDigitChars_lt {cs : List Char} (hdigits : ∀ c ∈ cs, c.isDigit = true) (n : Nat) :
    Nat.ofDigitChars 10 cs n < (n + 1) * 10 ^ cs.length := by
  induction cs generalizing n with
  | nil => simp [Nat.ofDigitChars]
  | cons c cs ih =>
      obtain ⟨hc, hcs⟩ := List.forall_mem_cons.mp hdigits
      have hdigit : c.toNat - '0'.toNat < 10 := by
        simp only [Char.isDigit, Bool.and_eq_true, decide_eq_true_eq] at hc
        have hle : c.toNat ≤ 57 := hc.2
        show c.toNat - 48 < 10
        omega
      rw [Nat.ofDigitChars_cons, List.length_cons, Nat.pow_succ']
      calc Nat.ofDigitChars 10 cs (10 * n + (c.toNat - '0'.toNat))
          < (10 * n + (c.toNat - '0'.toNat) + 1) * 10 ^ cs.length := ih hcs _
        _ ≤ (10 * (n + 1)) * 10 ^ cs.length := Nat.mul_le_mul_right _ (by omega)
        _ = (n + 1) * (10 * 10 ^ cs.length) := by rw [Nat.mul_comm 10, Nat.mul_assoc]

/-- A number has more digits than some exponent exactly from that power of ten on. -/
theorem lt_length_toDigits_iff {n e : Nat} (he : 0 < e) :
    e < (Nat.toDigits 10 n).length ↔ 10 ^ e ≤ n := by
  constructor
  · intro h
    by_contra hlt
    exact absurd (Nat.toDigits_length 10 n e he (Nat.not_le.mp hlt)) (Nat.not_le.mpr h)
  · intro h
    have hlt : n < 1 * 10 ^ (Nat.toDigits 10 n).length := by
      conv_lhs => rw [← Nat.ofDigitChars_ten_toDigits (n := n)]
      exact ofDigitChars_lt (fun c hc => Nat.isDigit_of_mem_toDigits (by omega) (by omega) hc) 0
    rw [Nat.one_mul] at hlt
    exact (Nat.pow_lt_pow_iff_right (by omega)).mp (Nat.lt_of_le_of_lt h hlt)

theorem isWritable_iff {n : Int} : Numeral.isWritable n = true ↔ ¬ TooLongToShow n := by
  rw [Numeral.isWritable, decide_eq_true_iff, TooLongToShow, ← Nat.not_lt, not_iff_not]
  exact lt_length_toDigits_iff (by decide)

theorem tooLong_leastTooLong : TooLongToShow leastTooLong := Nat.le_refl _

end Formwork.Proofs
