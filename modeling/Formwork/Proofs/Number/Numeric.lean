import Formwork.Proofs.Number.PlainDecimal

/-!
# Texts in the form of a number

What is entered for a number is taken for one by its form: a minus sign if any, digits with a point
among or around them, and an exponent, with blanks at the ends. A text of this form is read, with
two exceptions. An integer may have too many digits, and of the blanks the four information
separators may not stand around a numeral.
-/

namespace Formwork.NumericText

open Formwork.Text

/-- At an end of the text there are blanks that no numeral may have around it. -/
def Separated (s : String) : Prop := trimBy isNumeralBlank s.toList ≠ trim s.toList

end Formwork.NumericText

namespace Formwork.Proofs

open Formwork Text Numeral NumericText

/-! ## Blanks behind a number -/

/-- No script has its digits among the blanks. -/
theorem isDecimal_of_isBlank {c : Char} (h : isBlank c = true) : isDecimal c = false := by
  have hapart : ∀ r ∈ wideBlankRanges, ∀ z ∈ decimalZeros, r.2 < z ∨ z + 10 ≤ r.1 := by decide
  simp only [isBlank, inRanges, Bool.or_eq_true, Bool.and_eq_true, decide_eq_true_eq,
    List.any_eq_true] at h
  unfold isDecimal digitValue?
  by_cases hascii : c.toNat < 128
  · rw [if_pos hascii, if_neg]
    · rfl
    · rintro ⟨hlow, hhigh⟩
      have hlow : 48 ≤ c.toNat := hlow
      have hhigh : c.toNat ≤ 57 := hhigh
      omega
  · rw [if_neg hascii, Option.isSome_map, Option.isSome_eq_false_iff, Option.isNone_iff_eq_none,
      List.find?_eq_none]
    intro z hz
    obtain ⟨r, hr, hc⟩ : ∃ r ∈ wideBlankRanges, r.1 ≤ c.toNat ∧ c.toNat ≤ r.2 := by
      rcases h with (h | h) | h
      · omega
      · omega
      · exact h.2
    have := hapart r hr z hz
    simp only [Bool.and_eq_true, decide_eq_true_eq]
    omega

theorem isEmpty_digitValues {cs : List Char} (h : ∀ c ∈ cs, isDecimal c = true) :
    (cs.filterMap digitValue?).isEmpty = cs.isEmpty := by
  rw [Bool.eq_iff_iff, List.isEmpty_iff_length_eq_zero, List.isEmpty_iff_length_eq_zero,
    length_digitValues h]

section Behind

variable {behind : List Char}

theorem endsDigits_of_isBlank (h : ∀ c, behind.head? = some c → isBlank c = true) :
    EndsDigits behind := by
  intro c hc
  refine ⟨isDecimal_of_isBlank (h c hc), ?_⟩
  rintro rfl
  exact absurd (h _ hc) (by decide)

theorem Blanks.endsDigits (h : Blanks behind) : EndsDigits behind :=
  endsDigits_of_isBlank fun c hc => h c (List.mem_of_mem_head? hc)

/-- Digits are read up to the blanks behind them. -/
theorem digitRun_append {cs : List Char} (hne : cs ≠ []) (h : ∀ c ∈ cs, isDecimal c = true)
    (hbehind : EndsDigits behind) : ∃ d ds, digitRun (cs ++ behind) = (d :: ds, behind)
      ∧ (d :: ds).length = cs.length := by
  have hrun := digitRunAfter_decimals h hbehind false
  have hlength := length_digitValues h
  cases hvalues : cs.filterMap digitValue? with
  | nil =>
      rw [hvalues] at hlength
      exact absurd (List.length_eq_zero_iff.mp hlength.symm) hne
  | cons d ds =>
      rw [hvalues] at hrun hlength
      exact ⟨d, ds, hrun, hlength⟩

/-- There is no sign in front of another character. -/
theorem splitSign_of_ne {c : Char} (hminus : c ≠ '-') (hplus : c ≠ '+') (cs : List Char) :
    splitSign (c :: cs) = (false, c :: cs) := by
  unfold splitSign
  split
  · cases ‹_ :: _ = _›
    exact absurd rfl hminus
  · cases ‹_ :: _ = _›
    exact absurd rfl hplus
  · rfl

theorem splitSign_of_isDecimal {c : Char} (h : isDecimal c = true) (cs : List Char) :
    splitSign (c :: cs) = (false, c :: cs) := by
  refine splitSign_of_ne ?_ ?_ cs
  · rintro rfl
    exact absurd h (by decide)
  · rintro rfl
    exact absurd h (by decide)

/-- Behind the mark of an exponent there is a sign, if any, and digits. -/
theorem isExponent_cons {mark : Char} {more : List Char} (h : isExponent (mark :: more) = true)
    (behind : List Char) :
    (mark == 'e' || mark == 'E') = true ∧ ∃ negative digits, digits ≠ []
      ∧ (∀ c ∈ digits, isDecimal c = true)
      ∧ splitSign (more ++ behind) = (negative, digits ++ behind) := by
  unfold isExponent at h
  dsimp only at h
  split at h
  all_goals
    simp only [Bool.and_eq_true, Bool.not_eq_true', List.isEmpty_eq_false_iff,
      List.all_eq_true] at h
    obtain ⟨⟨hmark, hne⟩, hall⟩ := h
    refine ⟨hmark, ?_⟩
  · exact ⟨true, _, hne, hall, rfl⟩
  · exact ⟨false, _, hne, hall, rfl⟩
  · obtain ⟨c, cs, rfl⟩ := List.exists_cons_of_ne_nil hne
    exact ⟨false, c :: cs, hne, hall,
      splitSign_of_isDecimal (hall c (List.mem_cons_self ..)) _⟩

/-- An exponent is read up to the blanks behind it. -/
theorem exponentPart_append {exponent : List Char} (h : isExponent exponent = true)
    (hbehind : Blanks behind) : ∃ k, exponentPart (exponent ++ behind) = some (k, behind) := by
  cases exponent with
  | nil =>
      cases behind with
      | nil => exact ⟨0, rfl⟩
      | cons c rest =>
          have hblank := hbehind c (List.mem_cons_self ..)
          have hmark : (c == 'e' || c == 'E') = false := by
            rw [Bool.or_eq_false_iff, beq_eq_false_iff_ne, beq_eq_false_iff_ne]
            constructor <;> (rintro rfl; exact absurd hblank (by decide))
          rw [List.nil_append, exponentPart, hmark]
          exact ⟨0, rfl⟩
  | cons mark more =>
      obtain ⟨hmark, negative, digits, hne, hall, hsign⟩ := isExponent_cons h behind
      obtain ⟨d, ds, hrun, -⟩ := digitRun_append hne hall hbehind.endsDigits
      rw [List.cons_append, exponentPart, hmark, if_pos rfl, hsign]
      dsimp only
      rw [hrun]
      exact ⟨_, rfl⟩

/-- Neither an exponent nor blanks go on with digits, or with a point. -/
theorem head_exponent_append {exponent : List Char} (h : isExponent exponent = true)
    (hbehind : Blanks behind) :
    EndsDigits (exponent ++ behind) ∧ (exponent ++ behind).head? ≠ some '.' := by
  cases exponent with
  | nil =>
      refine ⟨hbehind.endsDigits, fun hpoint => ?_⟩
      exact absurd (hbehind _ (List.mem_of_mem_head? hpoint)) (by decide)
  | cons mark more =>
      obtain ⟨hmark, -⟩ := isExponent_cons h behind
      simp only [Bool.or_eq_true, beq_iff_eq] at hmark
      rcases hmark with rfl | rfl
      · exact ⟨by rintro c ⟨⟩; decide, nofun⟩
      · exact ⟨by rintro c ⟨⟩; decide, nofun⟩

/-- What the form of a number without a sign says. -/
theorem isUnsigned_eq_true {body : List Char} (h : isUnsigned body = true) :
    ∃ whole tail, body = whole ++ tail ∧ (∀ c ∈ whole, isDecimal c = true)
      ∧ ((whole ≠ [] ∧ isExponent tail = true)
        ∨ ∃ fraction exponent, tail = '.' :: (fraction ++ exponent)
          ∧ (∀ c ∈ fraction, isDecimal c = true) ∧ (whole ≠ [] ∨ fraction ≠ [])
          ∧ isExponent exponent = true) := by
  unfold isUnsigned at h
  rw [List.span_eq_takeWhile_dropWhile] at h
  dsimp only at h
  refine ⟨_, _, List.takeWhile_append_dropWhile.symm, fun c hc => List.mem_takeWhile_imp hc, ?_⟩
  split at h
  · rename_i more hpoint
    rw [List.span_eq_takeWhile_dropWhile] at h
    dsimp only at h
    obtain ⟨hdigits, hexponent⟩ := Bool.and_eq_true_iff.mp h
    refine .inr ⟨more.takeWhile isDecimal, _, ?_, fun c hc => List.mem_takeWhile_imp hc, ?_,
      hexponent⟩
    · rw [hpoint, List.takeWhile_append_dropWhile]
    · simpa [-List.takeWhile_eq_nil_iff] using hdigits
  · obtain ⟨hdigits, hexponent⟩ := Bool.and_eq_true_iff.mp h
    exact .inl ⟨by simpa [-List.takeWhile_eq_nil_iff] using hdigits, hexponent⟩

/-- Only capitals have another lower case. -/
theorem toLower_eq_self {c : Char} (h : c.toNat < 65 ∨ 90 < c.toNat) : c.toLower = c := by
  refine dif_neg ?_
  rintro ⟨hlow, hhigh⟩
  have hlow : 65 ≤ c.toNat := hlow
  have hhigh : c.toNat ≤ 90 := hhigh
  omega

/-- No text with a blank is one of the words that stand for a number. -/
theorem no_blank_of_word {cs : List Char} {w : String} (hw : ∀ c ∈ w.toList, isBlank c = false)
    (h : (String.ofList (cs.map Char.toLower) == w) = true) : ∀ c ∈ cs, isBlank c = false := by
  intro c hc
  rw [Bool.eq_false_iff]
  intro hblank
  have hlower : c.toLower = c := toLower_eq_self (by
    simp only [isBlank, Bool.or_eq_true, Bool.and_eq_true, decide_eq_true_eq] at hblank
    omega)
  have hmem : c ∈ w.toList := by
    rw [← eq_of_beq h, String.toList_ofList, ← hlower]
    exact List.mem_map_of_mem hc
  rw [hw c hmem] at hblank
  cases hblank

/-- What is read behind the whole part of a number: a point and digits, if there is a point. -/
def readFraction : List Char → List Nat × List Char
  | '.' :: rest => digitRun rest
  | rest => ([], rest)

/-- What is read that is no word. -/
def readDecimal (negative : Bool) (body : List Char) : Option Binary64 :=
  let (whole, afterWhole) := digitRun body
  let (fraction, afterFraction) := readFraction afterWhole
  if whole.isEmpty && fraction.isEmpty then none
  else match exponentPart afterFraction with
    | some (exponent, []) =>
      some (Binary64.ofDecimal negative (ofDigits (whole ++ fraction)) (exponent - fraction.length))
    | _ => none

/-- A number without a sign is a word, and then has no blank, or made of digits. -/
theorem magnitude?_cases (negative : Bool) (cs : List Char) :
    ((∃ x, magnitude? negative cs = some x) ∧ ∀ c ∈ cs, isBlank c = false)
      ∨ magnitude? negative cs = readDecimal negative cs := by
  unfold magnitude?
  dsimp only
  split
  · rename_i hword
    rcases Bool.or_eq_true_iff.mp hword with hword | hword
    · exact .inl ⟨⟨_, rfl⟩, no_blank_of_word (by decide) hword⟩
    · exact .inl ⟨⟨_, rfl⟩, no_blank_of_word (by decide) hword⟩
  · split
    · rename_i hword
      exact .inl ⟨⟨_, rfl⟩, no_blank_of_word (by decide) hword⟩
    · exact .inr rfl

theorem readFraction_of_head {rest : List Char} (h : rest.head? ≠ some '.') :
    readFraction rest = ([], rest) := by
  unfold readFraction
  split
  · exact absurd rfl h
  · rfl

/-- Digits are read up to the exponent of a number, and there are some. -/
theorem mantissa_append {body : List Char} (h : isUnsigned body = true)
    (hbehind : Blanks behind) : ∃ ds after fs exponent,
      digitRun (body ++ behind) = (ds, after) ∧ readFraction after = (fs, exponent ++ behind)
      ∧ (ds.isEmpty && fs.isEmpty) = false ∧ isExponent exponent = true := by
  obtain ⟨whole, tail, rfl, hwhole, ⟨hne, hexponent⟩ |
    ⟨fraction, exponent, rfl, hfraction, hne, hexponent⟩⟩ := isUnsigned_eq_true h
  · obtain ⟨hends, hpoint⟩ := head_exponent_append hexponent hbehind
    obtain ⟨d, ds, hrun, -⟩ := digitRun_append hne hwhole hends
    refine ⟨d :: ds, tail ++ behind, [], tail, ?_, readFraction_of_head hpoint, rfl, hexponent⟩
    rw [List.append_assoc, hrun]
  · obtain ⟨hends, -⟩ := head_exponent_append hexponent hbehind
    have hpoint : EndsDigits ('.' :: (fraction ++ (exponent ++ behind))) :=
      endsDigits_of_point (.inr ⟨_, rfl⟩)
    refine ⟨whole.filterMap digitValue?, '.' :: (fraction ++ (exponent ++ behind)),
      fraction.filterMap digitValue?, exponent, ?_,
      digitRunAfter_decimals hfraction hends false, ?_, hexponent⟩
    · rw [List.append_assoc, List.cons_append, List.append_assoc]
      exact digitRunAfter_decimals hwhole hpoint false
    · rw [isEmpty_digitValues hwhole, isEmpty_digitValues hfraction]
      simpa [or_iff_not_imp_left] using hne

/-- What has the form of a number is read up to the blanks behind it, and is none with them. -/
theorem magnitude?_append {body : List Char} (h : isUnsigned body = true)
    (hbehind : Blanks behind) (negative : Bool) :
    (∃ x, magnitude? negative (body ++ behind) = some x) ↔ behind = [] := by
  rcases magnitude?_cases negative (body ++ behind) with ⟨hsome, hplain⟩ | hread
  · refine iff_of_true hsome (List.eq_nil_iff_forall_not_mem.mpr fun c hc => ?_)
    have hno := hplain c (List.mem_append_right _ hc)
    rw [hbehind c hc] at hno
    cases hno
  · obtain ⟨ds, after, fs, exponent, hwhole, hfraction, hne, hexponent⟩ :=
      mantissa_append h hbehind
    obtain ⟨k, hk⟩ := exponentPart_append hexponent hbehind
    rw [hread, readDecimal, hwhole]
    dsimp only
    rw [hfraction]
    dsimp only
    rw [hne, if_neg Bool.false_ne_true, hk]
    cases behind <;> simp

/-- The sign of a number is read, and what is behind it is left. -/
theorem splitSign_append {cs : List Char} (h : isUnsigned (dropMinus cs) = true)
    (behind : List Char) :
    ∃ negative, splitSign (cs ++ behind) = (negative, dropMinus cs ++ behind) := by
  unfold dropMinus at h ⊢
  split at h
  · exact ⟨true, rfl⟩
  · rename_i hminus
    refine ⟨false, ?_⟩
    cases cs with
    | nil => cases h
    | cons c cs =>
        refine splitSign_of_ne ?_ ?_ (cs ++ behind)
        · rintro rfl
          exact hminus cs rfl
        · rintro rfl
          have hplus : isUnsigned ('+' :: cs) = false := rfl
          rw [hplus] at h
          cases h

end Behind

/-! ## Blanks in front of a number -/

section Front

variable {c : Char} {cs : List Char}

theorem splitSign_of_isBlank (h : isBlank c = true) : splitSign (c :: cs) = (false, c :: cs) := by
  refine splitSign_of_ne ?_ ?_ cs
  · rintro rfl
    exact absurd h (by decide)
  · rintro rfl
    exact absurd h (by decide)

theorem digitRun_of_isBlank (h : isBlank c = true) : digitRun (c :: cs) = ([], c :: cs) := by
  have hends : EndsDigits (c :: cs) := endsDigits_of_isBlank (by rintro d ⟨⟩; exact h)
  exact digitRunAfter_decimals (List.forall_mem_nil _) hends false

theorem magnitude?_of_isBlank (h : isBlank c = true) (negative : Bool) :
    magnitude? negative (c :: cs) = none := by
  rcases magnitude?_cases negative (c :: cs) with ⟨-, hplain⟩ | hread
  · have hno := hplain c (List.mem_cons_self ..)
    rw [h] at hno
    cases hno
  · have hpoint : (c :: cs).head? ≠ some '.' := by
      rintro ⟨⟩
      exact absurd h (by decide)
    rw [hread, readDecimal, digitRun_of_isBlank h]
    dsimp only
    rw [readFraction_of_head hpoint]
    rfl

end Front

/-! ## Reading -/

section Reading

variable {s : String}

/-- Nothing is read behind a blank. -/
theorem parse_of_front {c : Char} {rest : List Char} (hc : isBlank c = true)
    (hs : trimBy isNumeralBlank s.toList = c :: rest) : ∃ e, parse s = .error e := by
  rw [parse]
  split
  · rw [NumericText.integer, readInt, hs, splitSign_of_isBlank hc]
    dsimp only
    rw [digitRun_of_isBlank hc]
    exact ⟨_, rfl⟩
  · rw [real?, hs, splitSign_of_isBlank hc]
    dsimp only
    rw [magnitude?_of_isBlank hc]
    exact ⟨_, rfl⟩

/-- An integer is read unless there are blanks behind it, or too many digits. -/
theorem integer_error_iff {behind : List Char} (hinteger : isInteger s = true) {negative : Bool}
    (hbehind : Blanks behind) (hsign : splitSign (trimBy isNumeralBlank s.toList) =
      (negative, dropMinus (trim s.toList) ++ behind)) :
    (∃ e, NumericText.integer s = .error e) ↔ behind ≠ [] ∨ Overlong s := by
  obtain ⟨hne, hall⟩ := isInteger_eq_true_iff.mp hinteger
  obtain ⟨d, ds, hrun, hlength⟩ := digitRun_append hne hall hbehind.endsDigits
  rw [NumericText.integer, readInt, hsign]
  dsimp only
  rw [hrun]
  cases behind with
  | nil =>
      have hlong : Overlong s ↔ maxDigits < (dropMinus (trim s.toList)).length :=
        ⟨And.right, fun hlong => ⟨hinteger, hlong⟩⟩
      dsimp only
      rw [hlong, hlength]
      by_cases hlong : maxDigits < (dropMinus (trim s.toList)).length
      · simp [hlong]
      · simp [hlong]
  | cons c rest => simp

/-- Any other number is read unless there are blanks behind it. -/
theorem real?_eq_none_iff {behind : List Char} (h : isNumeric s = true) {negative : Bool}
    (hbehind : Blanks behind) (hsign : splitSign (trimBy isNumeralBlank s.toList) =
      (negative, dropMinus (trim s.toList) ++ behind)) : real? s = none ↔ behind ≠ [] := by
  rw [real?, hsign, Ne, ← magnitude?_append h hbehind negative, Option.eq_none_iff_forall_ne_some,
    not_exists]

/-- **A text in the form of a number is read**, unless it is an integer with too many digits, or has
a blank around it that a numeral may not have. -/
theorem parse_error_iff (h : isNumeric s = true) :
    (∃ e, parse s = .error e) ↔ Separated s ∨ Overlong s := by
  have htrim : trim (trimBy isNumeralBlank s.toList) = trim s.toList :=
    trim_trimBy (fun _ hc => (Bool.and_eq_true_iff.mp hc).1) _
  obtain ⟨front, behind, hfront, hbehind, heq⟩ := trim_surrounded (trimBy isNumeralBlank s.toList)
  rw [htrim] at heq
  have hseparated : Separated s ↔ front ≠ [] ∨ behind ≠ [] := by
    rw [← not_and_or, Separated, Ne, not_iff_not]
    constructor
    · intro hsame
      have hlength := congrArg List.length (hsame.symm.trans heq)
      simp only [List.length_append] at hlength
      exact ⟨List.length_eq_zero_iff.mp (by omega), List.length_eq_zero_iff.mp (by omega)⟩
    · rintro ⟨rfl, rfl⟩
      simpa using heq
  cases front with
  | cons c rest =>
      have hread := parse_of_front (hfront c (List.mem_cons_self ..)) heq
      exact iff_of_true hread (.inl (hseparated.mpr (.inl nofun)))
  | nil =>
      obtain ⟨negative, hsign⟩ := splitSign_append h behind
      rw [← List.nil_append (trim s.toList ++ behind), ← heq] at hsign
      have hplain : Separated s ↔ behind ≠ [] := by simpa using hseparated
      rw [hplain, parse]
      by_cases hinteger : isInteger s = true
      · rw [if_pos hinteger]
        exact integer_error_iff hinteger hbehind hsign
      · have hshort : ¬Overlong s := fun hlong => hinteger hlong.1
        rw [if_neg hinteger, ← real?_eq_none_iff h hbehind hsign]
        cases real? s <;> simp [hshort]

/-- A number is not blank, so that it is read when it is entered. -/
theorem coerceNumber_of_isNumeric (h : isNumeric s = true) :
    FieldKind.coerceNumber (.str s) = parse s := by
  have hfilled : isBlankText s = false := by
    rw [Bool.eq_false_iff]
    intro hblank
    have htrim : trim s.toList = [] := trim_eq_nil_iff.mpr (List.all_eq_true.mp hblank)
    rw [isNumeric, htrim] at h
    cases h
  rw [FieldKind.coerceNumber, hfilled, if_neg Bool.false_ne_true, if_pos h]

/-- **Nothing is made of what is entered for a number** only if it has the form of one but is not
read. -/
theorem coerceNumber_error_iff {v : Value} : (∃ e, FieldKind.coerceNumber v = .error e) ↔
    ∃ s, v = .str s ∧ isNumeric s = true ∧ (Separated s ∨ Overlong s) := by
  cases v with
  | str s =>
      simp only [Value.str.injEq, exists_eq_left']
      by_cases hnumeric : isNumeric s = true
      · rw [coerceNumber_of_isNumeric hnumeric, parse_error_iff hnumeric]
        simp [hnumeric]
      · rw [FieldKind.coerceNumber, if_neg hnumeric]
        by_cases hblank : isBlankText s = true <;> simp [hblank, hnumeric]
  | null | bool | int | float | list | object => simp [FieldKind.coerceNumber]

end Reading

end Formwork.Proofs
