import Formwork.Document.FieldKind
import Formwork.Proofs.Answer
import Formwork.Proofs.Text.Runs

/-!
# Plain decimals

A default of a choice is a number when its output has the form of a plain decimal: a minus
sign if any, digits of any script, and possibly a point and more digits. Such a text always
has a value, with one exception: without a point it is read as an integer, and an integer
numeral has a greatest length.
-/

namespace Formwork

/-- Without the blanks at its ends the text is an integer with more digits than one may have. -/
def NumericText.Overlong (s : String) : Prop :=
  isInteger s = true ∧ Numeral.maxDigits < (dropMinus (Text.trim s.toList)).length

/-- The fault of a numeral that is too long. -/
def NumberFault.IsTooLong (e : NumberFault) : Prop := ∃ digits, e = .integerTooLong digits

end Formwork

namespace Formwork.Proofs

open Formwork Text Numeral NumericText

/-! ## Blanks -/

/-- Blanks around a numeral are blanks. -/
theorem trimBy_trimmed (s : String) : trimBy isNumeralBlank (trimmed s).toList = trim s.toList := by
  rw [trimmed, String.toList_ofList]
  exact trimBy_trimBy (fun _ h => (Bool.and_eq_true_iff.mp h).1) _

/-! ## Digits -/

/-- Decimal digits, at least one. -/
structure Digits (cs : List Char) : Prop where
  nonempty : cs ≠ []
  decimal : ∀ c ∈ cs, isDecimal c = true

theorem length_digitValues {cs : List Char} (h : ∀ c ∈ cs, isDecimal c = true) :
    (cs.filterMap digitValue?).length = cs.length := by
  induction cs with
  | nil => rfl
  | cons c cs ih =>
      obtain ⟨hc, hcs⟩ := List.forall_mem_cons.mp h
      obtain ⟨d, hd⟩ := Option.isSome_iff_exists.mp hc
      rw [List.filterMap_cons_some hd, List.length_cons, List.length_cons, ih hcs]

/-- A run of digits ends here: there is neither a digit nor an underscore. -/
def EndsDigits (rest : List Char) : Prop :=
  ∀ c, rest.head? = some c → isDecimal c = false ∧ c ≠ '_'

theorem endsDigits_of_point {rest : List Char} (h : rest = [] ∨ ∃ tail, rest = '.' :: tail) :
    EndsDigits rest := by
  rcases h with rfl | ⟨tail, rfl⟩
  · exact nofun
  · rintro c ⟨⟩
    decide

/-- Digits are read up to the first character that is neither a digit nor an underscore. -/
theorem digitRunAfter_decimals {cs rest : List Char} (h : ∀ c ∈ cs, isDecimal c = true)
    (hrest : EndsDigits rest) (afterDigit : Bool) :
    digitRunAfter afterDigit (cs ++ rest) = (cs.filterMap digitValue?, rest) := by
  induction cs generalizing afterDigit with
  | nil =>
      cases rest with
      | nil => rfl
      | cons c rest =>
          obtain ⟨hdigit, hunderscore⟩ := hrest c rfl
          have hnone : digitValue? c = none := by simpa [isDecimal] using hdigit
          rw [List.nil_append, digitRunAfter, hnone]
          simp [hunderscore]
  | cons c cs ih =>
      obtain ⟨hc, hcs⟩ := List.forall_mem_cons.mp h
      obtain ⟨d, hd⟩ := Option.isSome_iff_exists.mp hc
      rw [List.cons_append, digitRunAfter, hd, List.filterMap_cons_some hd]
      dsimp only
      rw [ih hcs]

theorem digitRun_all {cs : List Char} (h : ∀ c ∈ cs, isDecimal c = true) :
    digitRun cs = (cs.filterMap digitValue?, []) := by
  have := digitRunAfter_decimals h (endsDigits_of_point (.inl rfl)) false
  rwa [List.append_nil] at this

/-- In front of digits there is no other sign than the minus. -/
theorem splitSign_eq {cs : List Char} {c : Char} {rest : List Char} (h : dropMinus cs = c :: rest)
    (hc : isDecimal c = true) : ∃ negative, splitSign cs = (negative, dropMinus cs) := by
  have hplus : c ≠ '+' := by
    rintro rfl
    exact absurd hc (by decide)
  unfold splitSign
  split
  · exact ⟨true, rfl⟩
  · rename_i more
    cases h
    exact absurd rfl hplus
  · rename_i hminus _
    refine ⟨false, ?_⟩
    rw [dropMinus]
    exact fun rest heq => hminus rest heq

/-- The digits that a text begins with, behind the sign that it may have. -/
theorem read_digits {cs whole rest : List Char} (hbody : dropMinus cs = whole ++ rest)
    (hne : whole ≠ []) (hall : ∀ c ∈ whole, isDecimal c = true)
    (hrest : rest = [] ∨ ∃ tail, rest = '.' :: tail) :
    ∃ negative d ds, splitSign cs = (negative, whole ++ rest)
      ∧ digitRun (whole ++ rest) = (d :: ds, rest) ∧ (d :: ds).length = whole.length := by
  obtain ⟨c, more, rfl⟩ := List.exists_cons_of_ne_nil hne
  have hc : isDecimal c = true := hall c (List.mem_cons_self ..)
  obtain ⟨negative, hsign⟩ := splitSign_eq hbody hc
  obtain ⟨d, hd⟩ := Option.isSome_iff_exists.mp hc
  have hrun := digitRunAfter_decimals hall (endsDigits_of_point hrest) false
  have hlength := length_digitValues hall
  rw [List.filterMap_cons_some hd] at hrun hlength
  exact ⟨negative, d, _, hbody ▸ hsign, hrun, hlength⟩

/-! ## Reading -/

section Reading

variable {s : String} {whole : List Char}

/-- An integer text is read, unless it is too long. -/
theorem integer_fails (hbody : dropMinus (trim s.toList) = whole) (hne : whole ≠ [])
    (hall : ∀ c ∈ whole, isDecimal c = true) :
    Fails (integer (trimmed s)) NumberFault.IsTooLong (maxDigits < whole.length) := by
  have hbody' : dropMinus (trim s.toList) = whole ++ [] := by rw [hbody, List.append_nil]
  obtain ⟨negative, d, ds, hsign, hrun, hlength⟩ := read_digits hbody' hne hall (.inl rfl)
  rw [integer, readInt, trimBy_trimmed, hsign]
  dsimp only
  rw [hrun]
  dsimp only
  rw [hlength]
  by_cases hlong : maxDigits < whole.length
  · rw [if_pos hlong]
    exact Fails.error ⟨_, rfl⟩ hlong
  · rw [if_neg hlong]
    exact Fails.ok_of_not _ hlong

/-- A text with a point among its digits is read as a double. -/
theorem real?_of_point {fraction : List Char}
    (hbody : dropMinus (trim s.toList) = whole ++ '.' :: fraction) (hne : whole ≠ [])
    (hall : ∀ c ∈ whole, isDecimal c = true) (hfraction : ∀ c ∈ fraction, isDecimal c = true) :
    ∃ x, real? (trimmed s) = some x := by
  obtain ⟨negative, d, ds, hsign, hrun, -⟩ := read_digits hbody hne hall (.inr ⟨_, rfl⟩)
  rw [real?, trimBy_trimmed, hsign]
  dsimp only
  unfold magnitude?
  dsimp only
  -- what is no word is read as digits, a point and digits, with no exponent behind them
  split
  · exact ⟨_, rfl⟩
  · split
    · exact ⟨_, rfl⟩
    · rw [hrun]
      dsimp only
      simp only [digitRun_all hfraction]
      exact ⟨_, rfl⟩

end Reading

/-- What the form of a plain decimal says. -/
theorem isPlainDecimal_eq_true {s : String} (h : isPlainDecimal s = true) :
    ∃ whole rest, dropMinus s.toList = whole ++ rest ∧ whole ≠ []
      ∧ (∀ c ∈ whole, isDecimal c = true)
      ∧ (rest = [] ∨ ∃ fraction, rest = '.' :: fraction ∧ ∀ c ∈ fraction, isDecimal c = true) := by
  unfold isPlainDecimal at h
  rw [List.span_eq_takeWhile_dropWhile] at h
  dsimp only at h
  obtain ⟨hwhole, hrest⟩ := Bool.and_eq_true_iff.mp h
  refine ⟨_, _, List.takeWhile_append_dropWhile.symm, by simpa using hwhole,
    fun c hc => List.mem_takeWhile_imp hc, ?_⟩
  split at hrest
  · rename_i hnil
    exact .inl hnil
  · rename_i fraction hpoint
    exact .inr ⟨fraction, hpoint, List.all_eq_true.mp (Bool.and_eq_true_iff.mp hrest).2⟩
  · cases hrest

theorem isInteger_eq_true_iff {s : String} : isInteger s = true ↔
    dropMinus (trim s.toList) ≠ [] ∧ ∀ c ∈ dropMinus (trim s.toList), isDecimal c = true := by
  simp [isInteger]

/-- An integer is a plain decimal. -/
theorem isPlainDecimal_of_isInteger {s : String} (h : isInteger s = true) :
    isPlainDecimal (trimmed s) = true := by
  obtain ⟨hne, hall⟩ := isInteger_eq_true_iff.mp h
  rw [isPlainDecimal, trimmed, String.toList_ofList, List.span_eq_takeWhile_dropWhile,
    List.takeWhile_eq_self_iff.mpr hall, List.dropWhile_eq_nil_iff.mpr hall]
  simpa using hne

/-- **A plain decimal has a value unless it is an integer with too many digits.** -/
theorem parse_fails {s : String} (h : isPlainDecimal (trimmed s) = true) :
    Fails (parse (trimmed s)) NumberFault.IsTooLong (Overlong s) := by
  obtain ⟨whole, rest, hbody, hne, hall, hrest⟩ := isPlainDecimal_eq_true h
  rw [trimmed, String.toList_ofList] at hbody
  have hinteger : isInteger (trimmed s) = isInteger s := by
    rw [isInteger, isInteger, trim_trimmed]
  rw [parse, hinteger]
  rcases hrest with rfl | ⟨fraction, rfl, hfraction⟩
  · rw [List.append_nil] at hbody
    have hyes : isInteger s = true := isInteger_eq_true_iff.mpr (hbody ▸ ⟨hne, hall⟩)
    rw [if_pos hyes]
    refine (integer_fails hbody hne hall).congr ?_
    rw [Overlong, hbody]
    simp [hyes]
  · have hno : isInteger s = false := by
      rw [Bool.eq_false_iff]
      intro hyes
      have hpoint := (isInteger_eq_true_iff.mp hyes).2 '.' (by rw [hbody]; simp)
      exact absurd hpoint (by decide)
    obtain ⟨x, hx⟩ := real?_of_point hbody hne hall hfraction
    rw [if_neg (by simp [hno]), hx]
    exact Fails.ok_of_not _ (by simp [Overlong, hno])

/-- **The output of a default template stands for a value**, unless it is that of a choice and an
integer with too many digits. -/
theorem coerceDefault_fails (kind : FieldKind) (rendered : String) :
    Fails (kind.coerceDefault rendered) NumberFault.IsTooLong
      (kind = .radio ∧ Overlong rendered) := by
  cases kind with
  | radio =>
      rw [FieldKind.coerceDefault]
      split
      · rename_i hplain
        exact (parse_fails hplain).congr (by simp)
      · rename_i hplain
        refine Fails.ok_of_not _ fun h => ?_
        exact hplain (isPlainDecimal_of_isInteger h.2.1)
  | _ => exact Fails.ok_of_not _ (by simp)

end Formwork.Proofs
