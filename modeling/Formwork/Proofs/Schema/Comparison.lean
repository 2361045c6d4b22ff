import Formwork.Proofs.Number.Written
import Formwork.Proofs.Sample
import Formwork.Proofs.Schema.Range
import Formwork.Template.Operand

/-!
# Integers are compared as doubles

The bounds of a number field and the comparing helpers look at the doubles of what they compare, and
it is the same double whether an integer comes as itself or as its text. So two integers are
compared like their nearest doubles (`Binary64.clamped`): in the right order or as equal, never the
wrong way round, and exactly as soon as one of them is below `2^53`.
-/

namespace Formwork

open Binary64

/-- The value stands for the integer: it is the integer, if that has a double, or its text. -/
inductive Value.Denotes (n : Int) : Value → Prop
  | itself (h : n.natAbs < leastOverflow) : Denotes n (.int n)
  | text : Denotes n (.str (toString n))

/-- The integers `a` and `b` are compared like `x` and `y`. -/
structure ComparedLike (a b x y : Int) : Prop where
  /-- A number field that asks for `b` at least takes `a`, or rejects it for just that. -/
  min : ∀ (validators : Ordered CustomValidator) (f : Field) (p : Parameter) (message : String),
    f.kind = .number → f.validation = [⟨"min", some p, message⟩] → p.toValue.Denotes b →
    a.natAbs < leastOverflow → ∃ s shown, f.compile validators = .ok s ∧ ∀ v, v.Denotes a →
      s.validate v = .ok (if y ≤ x then .ok (.int a) else .error ⟨"min", shown⟩)
  /-- A number field that asks for `b` at most takes `a`, or rejects it for just that. -/
  max : ∀ (validators : Ordered CustomValidator) (f : Field) (p : Parameter) (message : String),
    f.kind = .number → f.validation = [⟨"max", some p, message⟩] → p.toValue.Denotes b →
    a.natAbs < leastOverflow → ∃ s shown, f.compile validators = .ok s ∧ ∀ v, v.Denotes a →
      s.validate v = .ok (if x ≤ y then .ok (.int a) else .error ⟨"max", shown⟩)
  /-- The helpers tell how `a` compares to `b`. -/
  helpers : ∀ u v : Value, u.Denotes a → v.Denotes b →
    Template.Helper.gt.call [.value u, .value v] = .ok (.value (.bool (decide (y < x))))
    ∧ Template.Helper.gte.call [.value u, .value v] = .ok (.value (.bool (decide (y ≤ x))))
    ∧ Template.Helper.lt.call [.value u, .value v] = .ok (.value (.bool (decide (x < y))))
    ∧ Template.Helper.lte.call [.value u, .value v] = .ok (.value (.bool (decide (x ≤ y))))

/-- The kind of the rules that bound a number at this end. -/
def Side.ruleKind : Side → RuleKind
  | .least => .min
  | .most => .max

/-- The integer lies within a limit. -/
def Side.Holds (side : Side) (limit x : Int) : Prop :=
  match side with
  | .least => limit ≤ x
  | .most => x ≤ limit

instance (side : Side) (limit x : Int) : Decidable (side.Holds limit x) := by
  unfold Side.Holds
  cases side <;> infer_instance

end Formwork

namespace Formwork.Proofs

open Formwork Binary64

/-! ## One double for each integer -/

section Denoting

variable {n : Int}

/-- What is entered for a number becomes the integer that it stands for. -/
theorem coerceNumber_of_denotes (h : n.natAbs < leastOverflow) {v : Value} (hv : v.Denotes n) :
    FieldKind.coerceNumber v = .ok (.int n) := by
  cases hv with
  | itself => rfl
  | text =>
      have hshort := h.trans_le (leastOverflow_le_ten_pow (e := Numeral.maxDigits) (by decide))
      rw [coerceNumber_toString, if_neg (Nat.not_le.mpr hshort)]

theorem denotes_iff {p : Parameter} : p.toValue.Denotes n ↔
    (p = .int n ∧ n.natAbs < leastOverflow) ∨ p = .text (toString n) := by
  constructor
  · intro h
    generalize hv : p.toValue = v at h
    cases h with
    | itself h => cases p <;> cases hv; exact .inl ⟨rfl, h⟩
    | text => cases p <;> cases hv; exact .inr rfl
  · rintro (⟨rfl, h⟩ | rfl)
    · exact .itself h
    · exact .text

/-- A numeric parameter is read as the double of the integer that it stands for. -/
theorem number_of_denotes {p : Parameter} (hp : p.toValue.Denotes n) (place : RulePlace) :
    place.number (some p) = .ok (ofInteger n) := by
  have hnan := (ofInteger_comparesLike n).isNaN
  rcases denotes_iff.mp hp with ⟨rfl, h⟩ | rfl
  · have hgiven : place.require (some (.int n)) = .ok (.int n) := rfl
    rw [RulePlace.number, hgiven]
    dsimp only [bind, Except.bind]
    rw [ofInt?_eq_some h]
    dsimp only
    rw [hnan]
    rfl
  · have hgiven : place.require (some (.text (toString n))) = .ok (.text (toString n)) :=
      require_eq_ok.mpr ⟨rfl, fun heq => toString_ne_empty n (Parameter.text.inj heq)⟩
    rw [RulePlace.number, hgiven]
    dsimp only [bind, Except.bind]
    rw [real?_toString]
    dsimp only
    rw [hnan]
    rfl

theorem operand_number_of_denotes {v : Value} (hv : v.Denotes n) :
    (Template.Operand.value v).number = .ok (ofInteger n) := by
  cases hv with
  | itself h =>
      show Template.doubleOf n = _
      rw [Template.doubleOf, ofInt?_eq_some h]
  | text =>
      show Except.ok ((Numeral.real? (Text.trimmed (toString n))).getD .nan) = _
      rw [trimmed_toString, real?_toString]
      rfl

end Denoting

/-! ## Bounds -/

section Bounds

variable {a b : Int}

theorem holdsDouble_ofInteger (side : Side) :
    side.holdsDouble (ofInteger b) (ofInteger a) = decide (side.Holds (clamped b) (clamped a)) := by
  have ha := ofInteger_comparesLike a
  have hb := ofInteger_comparesLike b
  unfold Side.holdsDouble
  rw [ha.isNaN]
  cases side with
  | least => simp [Side.Holds, ha.lt hb, ← decide_not]
  | most => simp [Side.Holds, hb.lt ha, ← decide_not]

theorem passes_bound (h : a.natAbs < leastOverflow) (side : Side) :
    (Check.bound side (ofInteger b)).passes .number (.int a) =
      .ok (decide (side.Holds (clamped b) (clamped a))) := by
  have hdouble : (Value.int a).double? = .ok (some (ofInteger a)) := by
    rw [Value.double?, ofInt?_eq_some h]
  rw [← holdsDouble_ofInteger]
  show Except.map _ (Value.int a).double? = _
  rw [hdouble]
  rfl

/-- A rule that bounds a number is compiled to the bound that its parameter stands for. -/
theorem compile_bound (side : Side) {p : Parameter} (hp : p.toValue.Denotes b)
    (validators : Ordered CustomValidator) (fieldId message : String) :
    ∃ shown, (ValidationRule.mk side.ruleKind.name (some p) message).compile validators fieldId =
      .ok ⟨side.ruleKind, .bound side (ofInteger b), shown⟩ := by
  have hname : RuleKind.ofName? side.ruleKind.name = some side.ruleKind := by cases side <;> rfl
  have hcheck : (RulePlace.mk fieldId side.ruleKind).check validators (some p) =
      .ok (.bound side (ofInteger b)) := by
    cases side <;> exact congrArg (Except.map _) (number_of_denotes hp _)
  -- a bound has a message of its own, however large it is
  have hmessage : ∃ shown, (ValidationRule.mk side.ruleKind.name (some p) message).messageFor
      (.bound side (ofInteger b)) = .ok shown := by
    unfold ValidationRule.messageFor
    split
    · cases side <;> exact ⟨_, rfl⟩
    · exact ⟨_, rfl⟩
  obtain ⟨shown, hshown⟩ := hmessage
  refine ⟨shown, ?_⟩
  rw [ValidationRule.compile, hname]
  dsimp only
  rw [hcheck]
  dsimp only [bind, Except.bind]
  rw [hshown]

/-- A number field that is bounded by one integer accepts another if it lies within the bound. -/
theorem validate_bounded {validators : Ordered CustomValidator} {f : Field} (side : Side)
    {p : Parameter} {message : String} (hkind : f.kind = .number)
    (hrules : f.validation = [⟨side.ruleKind.name, some p, message⟩]) (hp : p.toValue.Denotes b)
    (ha : a.natAbs < leastOverflow) : ∃ s shown, f.compile validators = .ok s ∧
      ∀ v, v.Denotes a → s.validate v = .ok (if side.Holds (clamped b) (clamped a)
        then .ok (.int a) else .error ⟨side.ruleKind.name, shown⟩) := by
  obtain ⟨shown, hrule⟩ := compile_bound side hp validators f.id message
  have hs : f.compile validators =
      .ok ⟨f.id, .number, [⟨side.ruleKind, .bound side (ofInteger b), shown⟩]⟩ := by
    rw [Field.compile, hrules, List.mapM_cons, hrule, List.mapM_nil, hkind]
    rfl
  refine ⟨_, shown, hs, fun v hv => ?_⟩
  rw [FieldSchema.validate]
  dsimp only
  have hread : FieldKind.number.coerceInput v = .ok (.int a) := coerceNumber_of_denotes ha hv
  rw [hread]
  dsimp only [FieldKind.typeFault?, FieldSchema.failure?, Rule.rejection?]
  rw [passes_bound ha]
  by_cases h : side.Holds (clamped b) (clamped a)
  · rw [decide_eq_true h, if_pos h]
    rfl
  · rw [decide_eq_false h, if_neg h]
    rfl

end Bounds

/-! ## Comparing -/

section Comparing

variable {a b x y : Int}

/-- Two integers are compared like their nearest doubles, and like all that is in the same order. -/
theorem comparedLike_of_iff (hle : clamped b ≤ clamped a ↔ y ≤ x)
    (hge : clamped a ≤ clamped b ↔ x ≤ y) : ComparedLike a b x y where
  min validators f p message hkind hrules hp ha := by
    obtain ⟨s, shown, hs, hall⟩ := validate_bounded .least hkind hrules hp ha
    refine ⟨s, shown, hs, fun v hv => ?_⟩
    rw [hall v hv]
    simp only [Side.Holds, hle]
    rfl
  max validators f p message hkind hrules hp ha := by
    obtain ⟨s, shown, hs, hall⟩ := validate_bounded .most hkind hrules hp ha
    refine ⟨s, shown, hs, fun v hv => ?_⟩
    rw [hall v hv]
    simp only [Side.Holds, hge]
    rfl
  helpers u v hu hv := by
    have ha := ofInteger_comparesLike a
    have hb := ofInteger_comparesLike b
    have hcall : ∀ test, Template.Operand.compareBy test (.value u) (.value v) =
        .ok (.value (.bool (test (ofInteger a) (ofInteger b)))) := fun test => by
      rw [Template.Operand.compareBy, operand_number_of_denotes hu, operand_number_of_denotes hv]
      rfl
    simp only [Template.Helper.call, hcall, ha.lt hb, hb.lt ha, ha.le hb, hb.le ha]
    simp only [← Int.not_le, hle, hge, true_and]

end Comparing

/--
**Integers are compared like their nearest doubles.**

A number field with a bound accepts or rejects an integer, and a comparing helper answers, by the
order of the two doubles. No double is nearer to an integer than its own, so this order is never
against that of the integers, and it is the same when one of the two is below `2^53`.
-/
theorem integers_compared (a b : Int) :
    ComparedLike a b (clamped a) (clamped b)
      ∧ (a.natAbs < leastOverflow → Representable (clamped a)
          ∧ ∀ m, Representable m → (a - clamped a).natAbs ≤ (a - m).natAbs)
      ∧ (a ≤ b → clamped a ≤ clamped b)
      ∧ (a.natAbs < 2 ^ precision ∨ b.natAbs < 2 ^ precision → ComparedLike a b a b) := by
  refine ⟨comparedLike_of_iff Iff.rfl Iff.rfl, fun h => ?_, clamped_mono, fun h =>
    comparedLike_of_iff (clamped_le_clamped_iff h.symm) (clamped_le_clamped_iff h)⟩
  rw [clamped_of_lt h]
  exact ⟨nearest_representable a, fun _ => nearest_le a⟩

/-! ## A limit -/

/-- A number that is `2^53` at most, where the limit is given as a text. -/
def limitField : Field :=
  { textField "limit" with
    kind := .number
    validation := [⟨"max", some (.text "9007199254740992"), "Too large"⟩] }

/-- The two integers that are looked at have the same double. -/
theorem limit_doubles :
    clamped (2 ^ 53) = 2 ^ 53 ∧ clamped (2 ^ 53 + 1) = 2 ^ 53
      ∧ (2 ^ 53 : Int).natAbs < leastOverflow ∧ (2 ^ 53 + 1 : Int).natAbs < leastOverflow := by
  decide +kernel

/-- The integer behind the limit is accepted, since its double is the limit. A helper does not tell
the two apart, but does so with the integer before the limit. -/
theorem integers_compared_limit :
    (∃ s, limitField.compile [] = .ok s
        ∧ s.validate (.str "9007199254740993") = .ok (.ok (.int 9007199254740993)))
      ∧ Template.Helper.gt.call [.value (.int (2 ^ 53 + 1)), .value (.int (2 ^ 53))] =
        .ok (.value (.bool false))
      ∧ Template.Helper.gt.call [.value (.int (2 ^ 53 + 1)), .value (.int (2 ^ 53 - 1))] =
        .ok (.value (.bool true)) := by
  obtain ⟨hlimit, hnext, hlow, hhigh⟩ := limit_doubles
  have hlike := (integers_compared (2 ^ 53 + 1) (2 ^ 53)).1
  have hbefore := (integers_compared (2 ^ 53 + 1) (2 ^ 53 - 1)).2.2.2 (.inr (by decide))
  rw [hlimit, hnext] at hlike
  refine ⟨?_, (hlike.helpers _ _ (.itself hhigh) (.itself hlow)).1,
    (hbefore.helpers _ _ (.itself hhigh) (.itself (by decide +kernel))).1⟩
  obtain ⟨s, shown, hs, hall⟩ := hlike.max [] limitField _ _ rfl rfl .text hhigh
  exact ⟨s, hs, hall _ .text⟩

/-- So the limit is taken for a number that is not below the next integer. -/
theorem limit_not_below_next :
    ¬ComparedLike (2 ^ 53) (2 ^ 53 + 1) (2 ^ 53) (2 ^ 53 + 1) := by
  obtain ⟨hlimit, hnext, hlow, hhigh⟩ := limit_doubles
  have hlike : ComparedLike (2 ^ 53) (2 ^ 53 + 1) (2 ^ 53) (2 ^ 53) :=
    comparedLike_of_iff (by rw [hlimit, hnext]) (by rw [hlimit, hnext])
  intro h
  have hexact := (h.helpers _ _ (.itself hlow) (.itself hhigh)).2.1
  rw [(hlike.helpers _ _ (.itself hlow) (.itself hhigh)).2.1] at hexact
  simp at hexact

end Formwork.Proofs
