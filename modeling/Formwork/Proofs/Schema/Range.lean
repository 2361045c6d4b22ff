import Formwork.Proofs.Number.Digits
import Formwork.Proofs.Schema.Overflow

/-!
# Parameters out of range

A rule whose parameter cannot be used is malformed, and told to be. But some parameters are
past what the rule can compute with at all (`ValidationRule.OutOfRange`): an infinite length,
a bound without a double, an integer with too many digits to be written down, a pattern that
repeats too often. Each reader of parameters is looked at for just these, kind by kind.
-/

namespace Formwork

namespace Parameter

/-- The integer that a parameter gives as a count, if it gives one. -/
def integer? : Parameter → Option Int
  | .int n => some n
  | .real x => x.truncate?
  | .text s => Numeral.int? s

/-- The parameter is an integer with too many digits to be written as a text. -/
def HasNoText (p : Parameter) : Prop := ∃ n, p = .int n ∧ TooLongToShow n

/-- What a pattern, given as a parameter, is out of range for. -/
def BreaksPattern (p : Parameter) (fault : RangeFault) : Prop :=
  (p.HasNoText ∧ fault = .integerTooLong)
    ∨ ∃ s f, p.asText = .ok s ∧ Pattern.read s = .error f ∧ f.range? = some fault

end Parameter

/-- The parameter of a rule of this kind, with this message of its own, is out of range. -/
def Parameter.OutOfRange (kind : RuleKind) (message : String) (p : Parameter)
    (fault : RangeFault) : Prop :=
  match kind with
  | .minLength | .maxLength =>
      -- it is infinite, or to be shown in the message that the rule has by default
      ((∃ negative, p = .real (.infinity negative)) ∧ fault = .infiniteInteger)
        ∨ (message = "" ∧ (∃ n, p.integer? = some n ∧ 0 ≤ n ∧ TooLongToShow n)
          ∧ fault = .integerTooLong)
  | .min | .max => (∃ n, p = .int n ∧ (Value.int n).IsTooLarge) ∧ fault = .integerTooLarge
  | .pattern => p.BreaksPattern fault
  | .minDate | .maxDate | .custom => p.HasNoText ∧ fault = .integerTooLong
  | .required => False

/-- The parameter of a rule is out of the rule's range. -/
def ValidationRule.OutOfRange (r : ValidationRule) (fault : RangeFault) : Prop :=
  ∃ kind p, RuleKind.ofName? r.kind = some kind ∧ r.parameter = some p
    ∧ p.OutOfRange kind r.message fault

end Formwork

namespace Formwork.Proofs

open Formwork

/-! ## One rule -/

section OneRule

variable {place : RulePlace} {fault : RangeFault}

/-- A parameter that a rule needs is there, and is not the empty text. -/
theorem require_eq_ok {p : Option Parameter} {q : Parameter} :
    place.require p = .ok q ↔ p = some q ∧ q ≠ .text "" := by
  unfold RulePlace.require
  split
  · simp [RulePlace.fault]
  · simp only [RulePlace.fault, reduceCtorEq, false_iff]
    rintro ⟨heq, hne⟩
    cases heq
    exact hne rfl
  · rename_i q' hne
    constructor
    · rintro ⟨⟩
      exact ⟨rfl, hne⟩
    · rintro ⟨heq, -⟩
      cases heq
      rfl

end OneRule

end Formwork.Proofs
