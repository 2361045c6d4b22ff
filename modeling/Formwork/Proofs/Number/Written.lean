import Formwork.Proofs.Json.RoundTrip
import Formwork.Proofs.Number.Numeric
import Formwork.Proofs.Number.Rounding

/-!
# Integers that are given as texts

The decimal text of an integer is a numeral for every reader: of integers (`readInt_toString`), of
what is entered for a number (`coerceNumber_toString`), and of real numbers (`real?_toString`). The
first two give the integer itself as long as it has not too many digits, and the last one the double
that the integer is compared as.
-/

namespace Formwork.Proofs

open Formwork Text Numeral NumericText Binary64 Json

/-! ## Digits -/

section Digits

variable {n : Nat} {c : Char}

theorem digitValue?_of_isAsciiDigit (h : isAsciiDigit c = true) :
    digitValue? c = some (c.toNat - 48) := by
  simp only [isAsciiDigit, Bool.and_eq_true, decide_eq_true_eq] at h
  have hhigh : c.toNat ≤ 57 := h.2
  rw [digitValue?, if_pos (by omega), if_pos h]

theorem digitValue?_of_mem_toDigits (h : c ∈ Nat.toDigits 10 n) :
    digitValue? c = some (c.toNat - 48) :=
  digitValue?_of_isAsciiDigit (isAsciiDigit_of_mem_toDigits h)

theorem isDecimal_of_mem_toDigits (h : c ∈ Nat.toDigits 10 n) : isDecimal c = true := by
  rw [isDecimal, digitValue?_of_mem_toDigits h]
  rfl

/-- The digits of a number are read as the number. -/
theorem digitRun_toDigits (n : Nat) :
    ∃ d ds, digitRun (Nat.toDigits 10 n) = (d :: ds, []) ∧ ofDigits (d :: ds) = n
      ∧ (d :: ds).length = (Nat.toDigits 10 n).length := by
  have hvalues : (Nat.toDigits 10 n).filterMap digitValue? =
      (Nat.toDigits 10 n).map fun c => c.toNat - 48 := by
    rw [← List.filterMap_eq_map]
    exact List.filterMap_congr fun c hc => digitValue?_of_mem_toDigits hc
  have hrun := digitRun_all fun c hc => isDecimal_of_mem_toDigits (n := n) hc
  have hnumber := ofDigits_map (Nat.toDigits 10 n)
  rw [Nat.ofDigitChars_ten_toDigits] at hnumber
  obtain ⟨d, ds, hdigits, -⟩ := toDigits_cons n
  rw [hvalues] at hrun
  rw [hdigits, List.map_cons] at hrun hnumber
  rw [hdigits]
  exact ⟨_, _, hrun, hnumber, by simp⟩

end Digits

/-! ## Signs and blanks -/

section Texts

variable {n : Int}

theorem toList_toString (n : Int) : (toString n).toList =
    if n < 0 then '-' :: Nat.toDigits 10 n.natAbs else Nat.toDigits 10 n.natAbs :=
  integer_eq n

theorem toString_ne_empty (n : Int) : toString n ≠ "" := by
  intro h
  have hnil := toList_toString n
  rw [h] at hnil
  split at hnil
  · cases hnil
  · exact Nat.toDigits_ne_nil hnil.symm

theorem isBlank_of_mem_toString {c : Char} (h : c ∈ (toString n).toList) : isBlank c = false := by
  have hdigits : ∀ c ∈ Nat.toDigits 10 n.natAbs, isBlank c = false := fun c hc =>
    isBlank_of_isAsciiDigit (isAsciiDigit_of_mem_toDigits hc)
  rw [toList_toString] at h
  split at h
  · rcases List.mem_cons.mp h with rfl | h
    · decide
    · exact hdigits c h
  · exact hdigits c h

theorem trim_toString (n : Int) : trim (toString n).toList = (toString n).toList :=
  trim_eq_self fun _ hc => isBlank_of_mem_toString hc

theorem trimmed_toString (n : Int) : trimmed (toString n) = toString n := by
  rw [trimmed, trim_toString, String.ofList_toList]

theorem trimBy_toString (n : Int) :
    trimBy isNumeralBlank (toString n).toList = (toString n).toList := by
  have htrimmed := trimBy_trimmed (toString n)
  rwa [trimmed_toString, trim_toString] at htrimmed

theorem splitSign_toString (n : Int) :
    splitSign (toString n).toList = (decide (n < 0), Nat.toDigits 10 n.natAbs) := by
  rw [toList_toString]
  split
  · rename_i hsign
    rw [decide_eq_true hsign]
    rfl
  · rename_i hsign
    obtain ⟨d, ds, hdigits, -⟩ := toDigits_cons n.natAbs
    have hd : isDecimal d = true :=
      isDecimal_of_mem_toDigits (n := n.natAbs) (hdigits ▸ List.mem_cons_self ..)
    rw [hdigits, decide_eq_false hsign, splitSign_of_isDecimal hd]

theorem dropMinus_toString (n : Int) :
    dropMinus (toString n).toList = Nat.toDigits 10 n.natAbs := by
  rw [toList_toString]
  split
  · rfl
  · obtain ⟨d, ds, hdigits, hd⟩ := toDigits_cons n.natAbs
    rw [hdigits]
    unfold dropMinus
    split
    · cases ‹_ :: _ = _›
      cases hd
    · rfl

end Texts

/-! ## Integers -/

/-- The text of an integer is read as the integer, unless it has too many digits. -/
theorem readInt_toString (n : Int) : readInt (toString n) =
    if 10 ^ maxDigits ≤ n.natAbs then .tooLong (Nat.toDigits 10 n.natAbs).length else .int n := by
  obtain ⟨d, ds, hrun, hnumber, hlength⟩ := digitRun_toDigits n.natAbs
  rw [readInt, trimBy_toString, splitSign_toString]
  dsimp only
  rw [hrun]
  dsimp only
  rw [hlength, hnumber]
  simp only [lt_length_toDigits_iff (e := maxDigits) (by decide)]
  split
  · rfl
  · by_cases hsign : n < 0
    · rw [if_pos (decide_eq_true hsign)]
      congr 1
      omega
    · rw [if_neg (by simpa using hsign)]
      congr 1
      omega

/-- What is entered for a number may be the text of it, with the same exception. -/
theorem coerceNumber_toString (n : Int) : FieldKind.coerceNumber (.str (toString n)) =
    if 10 ^ maxDigits ≤ n.natAbs then
      .error (.integerTooLong (Nat.toDigits 10 n.natAbs).length)
    else .ok (.int n) := by
  have hne : Nat.toDigits 10 n.natAbs ≠ [] := Nat.toDigits_ne_nil
  have hall : ∀ c ∈ Nat.toDigits 10 n.natAbs, isDecimal c = true :=
    fun c hc => isDecimal_of_mem_toDigits hc
  have hbody : dropMinus (trim (toString n).toList) = Nat.toDigits 10 n.natAbs := by
    rw [trim_toString, dropMinus_toString]
  have hinteger : isInteger (toString n) = true :=
    isInteger_eq_true_iff.mpr (hbody ▸ ⟨hne, hall⟩)
  have hnumeric : isNumeric (toString n) = true := by
    rw [isNumeric, hbody, isUnsigned, List.span_eq_takeWhile_dropWhile,
      List.takeWhile_eq_self_iff.mpr hall, List.dropWhile_eq_nil_iff.mpr hall]
    simp [isExponent]
  rw [coerceNumber_of_isNumeric hnumeric, NumericText.parse, if_pos hinteger, NumericText.integer,
    readInt_toString]
  by_cases hlong : 10 ^ maxDigits ≤ n.natAbs
  · rw [if_pos hlong, if_pos hlong]
  · rw [if_neg hlong, if_neg hlong]

/-! ## Real numbers -/

/-- A number of so many digits is past the largest double. -/
theorem leastOverflow_le_ten_pow {e : Nat} (he : 310 ≤ e) : leastOverflow ≤ 10 ^ e := by
  have hleast : leastOverflow ≤ 10 ^ 310 := by decide +kernel
  have hmono : ∀ k, k ≤ e → 10 ^ k ≤ 10 ^ e := fun k hk => Nat.pow_le_pow_right (by decide) hk
  exact hleast.trans (hmono 310 he)

theorem ofDecimal_zero (negative : Bool) (n : Nat) :
    ofDecimal negative n 0 = ofFraction negative n 1 := by
  unfold ofDecimal
  dsimp only
  split
  · rename_i h
    rcases Bool.or_eq_true_iff.mp h with h | h
    · rw [of_decide_eq_true h]
    · have := of_decide_eq_true h
      omega
  · split
    · rename_i hlong
      have hlarge : 10 ^ 310 ≤ n := (lt_length_toDigits_iff (by decide)).mp (by omega)
      have hnone : roundMagnitude? n 1 = none := Option.map_eq_none_iff.mp
        (ofInt?_eq_none_iff (n := n).mpr ((leastOverflow_le_ten_pow le_rfl).trans hlarge))
      rw [ofFraction, hnone]
    · simp

theorem magnitude?_toDigits (negative : Bool) (n : Nat) :
    magnitude? negative (Nat.toDigits 10 n) = some (ofFraction negative n 1) := by
  obtain ⟨d, ds, hrun, hnumber, -⟩ := digitRun_toDigits n
  -- no word starts with a digit
  have hword : ∀ w : String, (w.toList.head?.all fun c => !isAsciiDigit c) = true →
      (String.ofList ((Nat.toDigits 10 n).map Char.toLower) == w) = false := by
    intro w hw
    obtain ⟨c, cs, hdigits, hc⟩ := toDigits_cons n
    rw [beq_eq_false_iff_ne]
    rintro rfl
    have hlower : c.toLower = c := toLower_eq_self (.inl (by
      simp only [isAsciiDigit, Bool.and_eq_true, decide_eq_true_eq] at hc
      have hhigh : c.toNat ≤ 57 := hc.2
      omega))
    rw [hdigits, List.map_cons, String.toList_ofList, hlower] at hw
    simp [hc] at hw
  rw [magnitude?]
  dsimp only
  rw [hword "inf" (by decide), hword "infinity" (by decide), hword "nan" (by decide), hrun]
  simp [Numeral.exponentPart, hnumber, ofDecimal_zero]

theorem real?_toString (n : Int) : real? (toString n) = some (ofInteger n) := by
  rw [real?, trimBy_toString, splitSign_toString]
  exact magnitude?_toDigits _ _

end Formwork.Proofs
