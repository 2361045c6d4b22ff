import Formwork.Proofs.Number.Numeric

/-!
# Numbers that are entered and numbers that are rendered

A text becomes a number in two ways. What is entered is taken for a number by its form, and then
read as an integer or as a double, again by its form. The output of a default template is trimmed
and offered to both readers in turn, and is zero when it is no finite number for either. For a text
in the form of a number the two come to the same (`coercions_agree`): it is an integer exactly
without a point and an exponent, and what has one of them is never read as an integer.

They part where the reading of what is entered fails, at the ends of the text and for integers with
too many digits, and at the numbers past the doubles.
-/

namespace Formwork

/-- A number that is neither infinite nor NaN. -/
def Value.IsFinite : Value → Prop
  | .int _ => True
  | .float x => x.isFinite = true
  | _ => False

namespace NumericText

/-- There is a fractional part, if only a point. -/
def HasFraction (s : String) : Prop := '.' ∈ s.toList

/-- There is an exponent. -/
def HasExponent (s : String) : Prop := 'e' ∈ s.toList ∨ 'E' ∈ s.toList

/-- What is made of a text in the form of a number. -/
structure Agreement (s : String) : Prop where
  /-- What is entered is read. -/
  entered : FieldKind.coerceNumber (.str s) = parse s
  /-- It has a value, except behind or before a separator and as too long an integer. -/
  read_iff : (∃ v, parse s = .ok v) ↔ ¬ Separated s ∧ ¬ Overlong s
  /-- The value is an integer or a double. -/
  number : ∀ v, parse s = .ok v → (∃ n, v = .int n) ∨ ∃ x, v = .float x
  /-- It is an integer when the text has neither a fractional part nor an exponent. -/
  integer_iff : ∀ v, parse s = .ok v → ((∃ n, v = .int n) ↔ ¬ HasFraction s ∧ ¬ HasExponent s)
  /-- As the output of a default template the text gives the same, if that is finite. -/
  rendered_iff : ∀ v, parse s = .ok v → (FieldKind.coerceNumberDefault s = v ↔ v.IsFinite)

end NumericText

end Formwork

namespace Formwork.Proofs

open Formwork Text Numeral NumericText

/-! ## The form of an integer -/

section Form

variable {s : String} {body : List Char}

/-- The characters that make a number other than an integer. -/
def doubleMarks : List Char := ['.', 'e', 'E']

/-- A number without a sign is made of digits, or of some digits and a mark behind them. -/
theorem isUnsigned_cases (h : isUnsigned body = true) :
    (body ≠ [] ∧ ∀ c ∈ body, isDecimal c = true) ∨
      ∃ whole mark more, body = whole ++ mark :: more ∧ (∀ c ∈ whole, isDecimal c = true) ∧
        mark ∈ doubleMarks := by
  obtain ⟨whole, tail, rfl, hwhole, ⟨hne, hexponent⟩ | ⟨fraction, exponent, rfl, -, -, -⟩⟩ :=
    isUnsigned_eq_true h
  · cases tail with
    | nil =>
        rw [List.append_nil]
        exact .inl ⟨hne, hwhole⟩
    | cons mark more =>
        obtain ⟨hmark, -⟩ := isExponent_cons hexponent []
        refine .inr ⟨whole, mark, more, rfl, hwhole, ?_⟩
        rcases Bool.or_eq_true_iff.mp hmark with hmark | hmark
        · exact beq_iff_eq.mp hmark ▸ by decide
        · exact beq_iff_eq.mp hmark ▸ by decide
  · exact .inr ⟨whole, '.', _, rfl, hwhole, by decide⟩

/-- No mark goes on with digits. -/
theorem endsDigits_of_mem_marks {mark : Char} (h : mark ∈ doubleMarks) (more : List Char) :
    EndsDigits (mark :: more) := by
  have hmarks : ∀ c ∈ doubleMarks, isDecimal c = false ∧ c ≠ '_' := by decide
  rintro c ⟨⟩
  exact hmarks mark h

theorem mem_dropMinus_iff {c : Char} (hminus : c ≠ '-') {cs : List Char} :
    c ∈ dropMinus cs ↔ c ∈ cs := by
  unfold dropMinus
  split
  · simp [hminus]
  · rfl

/-- Trimming and the sign leave the marks of a text. -/
theorem mem_body_iff {mark : Char} (h : mark ∈ doubleMarks) :
    mark ∈ dropMinus (trim s.toList) ↔ mark ∈ s.toList := by
  have hmarks : ∀ c ∈ doubleMarks, c ≠ '-' ∧ isBlank c = false := by decide
  obtain ⟨hminus, hblank⟩ := hmarks mark h
  rw [mem_dropMinus_iff hminus, mem_trim_iff hblank]

theorem no_mark_iff :
    (∀ mark ∈ doubleMarks, mark ∉ s.toList) ↔ ¬ HasFraction s ∧ ¬ HasExponent s := by
  simp [doubleMarks, HasFraction, HasExponent]

/-- **A number is in the form of an integer unless it has a fractional part or an exponent.** -/
theorem isInteger_iff_of_isNumeric (h : isNumeric s = true) :
    isInteger s = true ↔ ¬ HasFraction s ∧ ¬ HasExponent s := by
  rw [isInteger_eq_true_iff, ← no_mark_iff]
  constructor
  · rintro ⟨-, hall⟩ mark hmark hmem
    have hmarks : ∀ c ∈ doubleMarks, isDecimal c = false := by decide
    have hdigit := hall mark ((mem_body_iff hmark).mpr hmem)
    rw [hmarks mark hmark] at hdigit
    cases hdigit
  · intro hno
    rcases isUnsigned_cases h with hdigits | ⟨whole, mark, more, hbody, -, hmark⟩
    · exact hdigits
    · have hmem : mark ∈ dropMinus (trim s.toList) := by rw [hbody]; simp
      exact absurd ((mem_body_iff hmark).mp hmem) (hno mark hmark)

end Form

/-! ## Reading with and without the blanks -/

section Reading

variable {s : String} {v : Value}

/-- Without separators at the ends, trimming makes no difference to the readers. -/
theorem readInt_trimmed (h : ¬ Separated s) : readInt (trimmed s) = readInt s := by
  rw [readInt, readInt, trimBy_trimmed, not_not.mp h]

theorem real?_trimmed (h : ¬ Separated s) : real? (trimmed s) = real? s := by
  rw [real?, real?, trimBy_trimmed, not_not.mp h]

/-- What is in the form of a number, and not in that of an integer, is none for the reader. -/
theorem readInt_eq_malformed (h : isNumeric s = true) (hinteger : isInteger s = false) :
    readInt (trimmed s) = .malformed := by
  obtain ⟨negative, hsign⟩ := splitSign_append h []
  rw [List.append_nil, List.append_nil] at hsign
  rcases isUnsigned_cases h with hdigits | ⟨whole, mark, more, hbody, hwhole, hmark⟩
  · rw [isInteger_eq_true_iff.mpr hdigits] at hinteger
    cases hinteger
  · have hrun : digitRun (whole ++ mark :: more) = (whole.filterMap digitValue?, mark :: more) :=
      digitRunAfter_decimals hwhole (endsDigits_of_mem_marks hmark more) false
    -- with or without digits in front, the mark is left over
    rw [readInt, trimBy_trimmed, hsign, hbody]
    dsimp only
    rw [hrun]
    cases whole.filterMap digitValue? <;> rfl

/-- What is read is an integer or a double, as the form of the text says. -/
theorem parse_eq_ok (h : parse s = .ok v) :
    (isInteger s = true ∧ ∃ n, readInt s = .int n ∧ v = .int n) ∨
      (isInteger s = false ∧ ∃ x, real? s = some x ∧ v = .float x) := by
  rw [parse] at h
  split at h
  · rename_i hinteger
    refine .inl ⟨hinteger, ?_⟩
    rw [integer] at h
    split at h
    · rename_i n hread
      cases h
      exact ⟨n, hread, rfl⟩
    · cases h
    · cases h
  · rename_i hinteger
    refine .inr ⟨Bool.eq_false_iff.mpr hinteger, ?_⟩
    split at h
    · rename_i x hread
      cases h
      exact ⟨x, hread, rfl⟩
    · cases h

/-- What is read has no separators around it. -/
theorem not_separated_of_parse (h : isNumeric s = true) (hparse : parse s = .ok v) :
    ¬ Separated s := by
  intro hseparated
  obtain ⟨e, he⟩ := (parse_error_iff h).mpr (.inl hseparated)
  rw [hparse] at he
  cases he

/-- A rendered integer is the integer. -/
theorem coerceNumberDefault_of_readInt {n : Int} (h : readInt (trimmed s) = .int n) :
    FieldKind.coerceNumberDefault s = .int n := by
  rw [FieldKind.coerceNumberDefault, int?, h]

/-- A rendered number that is no integer is the double, or zero if that is not finite. -/
theorem coerceNumberDefault_of_real? {x : Binary64} (hint : readInt (trimmed s) = .malformed)
    (hreal : real? (trimmed s) = some x) :
    FieldKind.coerceNumberDefault s = if x.isFinite then .float x else .int 0 := by
  rw [FieldKind.coerceNumberDefault, int?, hint, hreal]

/-- **What is read of a text is what is rendered of it, if it is finite.** -/
theorem coerceNumberDefault_eq_iff (h : isNumeric s = true) (hparse : parse s = .ok v) :
    FieldKind.coerceNumberDefault s = v ↔ v.IsFinite := by
  have hseparated := not_separated_of_parse h hparse
  rcases parse_eq_ok hparse with ⟨-, n, hread, rfl⟩ | ⟨hinteger, x, hread, rfl⟩
  · rw [← readInt_trimmed hseparated] at hread
    exact iff_of_true (coerceNumberDefault_of_readInt hread) trivial
  · -- the reader of integers is asked first, but finds a mark
    rw [← real?_trimmed hseparated] at hread
    rw [coerceNumberDefault_of_real? (readInt_eq_malformed h hinteger) hread, Value.IsFinite]
    by_cases hfinite : x.isFinite = true <;> simp [hfinite]

theorem parse_integer_iff (h : isNumeric s = true) (hparse : parse s = .ok v) :
    (∃ n, v = .int n) ↔ ¬ HasFraction s ∧ ¬ HasExponent s := by
  rw [← isInteger_iff_of_isNumeric h]
  rcases parse_eq_ok hparse with ⟨hinteger, n, -, rfl⟩ | ⟨hinteger, x, -, rfl⟩ <;> simp [hinteger]

end Reading

/-- **What is entered and what is rendered are the same number**, of the same type, for every text
in the form of a number that is read at all. -/
theorem coercions_agree {s : String} (h : isNumeric s = true) : Agreement s where
  entered := coerceNumber_of_isNumeric h
  read_iff := by
    rw [← not_or, ← parse_error_iff h]
    cases parse s <;> simp
  number v hv := by
    rcases parse_eq_ok hv with ⟨-, n, -, hn⟩ | ⟨-, x, -, hx⟩
    · exact .inl ⟨n, hn⟩
    · exact .inr ⟨x, hx⟩
  integer_iff _ := parse_integer_iff h
  rendered_iff _ := coerceNumberDefault_eq_iff h

/-- An integer in the digits of another script and with blanks around it, a double that is written
with a point and an exponent, and one that is too large to be rendered. -/
theorem coercions_agree_texts :
    (isNumeric "\n-\u0663\u0664 " = true
        ∧ FieldKind.coerceNumber (.str "\n-\u0663\u0664 ") = .ok (.int (-34))
        ∧ FieldKind.coerceNumberDefault "\n-\u0663\u0664 " = .int (-34))
      ∧ (isNumeric "2.5e1" = true
        ∧ FieldKind.coerceNumber (.str "2.5e1") = .ok (.float (.finite 25))
        ∧ FieldKind.coerceNumberDefault "2.5e1" = .float (.finite 25))
      ∧ (isNumeric "1e999" = true
        ∧ FieldKind.coerceNumber (.str "1e999") = .ok (.float (.infinity false))
        ∧ FieldKind.coerceNumberDefault "1e999" ≠ .float (.infinity false)) := by
  have hint : isNumeric "\n-\u0663\u0664 " = true := by decide
  have hdouble : isNumeric "2.5e1" = true := by decide
  have hlarge : isNumeric "1e999" = true := by decide
  have hparse : parse "\n-\u0663\u0664 " = .ok (.int (-34)) := by rfl
  have hreal : real? "2.5e1" = some (.finite 25) := by decide +kernel
  have hparse' : parse "2.5e1" = .ok (.float (.finite 25)) := by
    rw [parse, if_neg (by decide), hreal]
  have hpast : parse "1e999" = .ok (.float (.infinity false)) := by rfl
  refine ⟨⟨hint, ?_, ?_⟩, ⟨hdouble, ?_, ?_⟩, hlarge, ?_, ?_⟩
  · exact (coercions_agree hint).entered.trans hparse
  · exact ((coercions_agree hint).rendered_iff _ hparse).mpr trivial
  · exact (coercions_agree hdouble).entered.trans hparse'
  · exact ((coercions_agree hdouble).rendered_iff _ hparse').mpr rfl
  · exact (coercions_agree hlarge).entered.trans hpast
  · rw [Ne, (coercions_agree hlarge).rendered_iff _ hpast]
    exact Bool.false_ne_true

/-- Behind a separator a five is a number by its form and not read as one, and rendered it is. -/
theorem separated_five_unread :
    isNumeric "\x1c5" = true
      ∧ FieldKind.coerceNumber (.str "\x1c5") = .error (.notAnInteger "\x1c5")
      ∧ FieldKind.coerceNumberDefault "\x1c5" = .int 5 :=
  ⟨by decide, by rfl, by rfl⟩

end Formwork.Proofs
