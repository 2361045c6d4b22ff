import Formwork.Proofs.Number.Range
import Formwork.Proofs.Schema.Compiled
import Formwork.Proofs.Values.SentBack

/-!
# When validation has no report

Validation answers with a list of issues, whatever the values are, but for one thing: two
kinds of checks compare their value as a double, and an integer past the range of doubles has
none. A bound does so with any value, and `required` with the value of a number.

So there is no report exactly when such a check gets such an integer (`Schema.Overflows`): the
value has the right type for its field and passed all checks before, and, in a group, its
instance is one that is looked at. Every other conversion in a check is guarded, or its failure is
reported: an integer that cannot be shown is an issue of its field (`rejection?_fails`).
-/

namespace Formwork

/-- An integer that has no double. -/
def Value.IsTooLarge : Value → Prop
  | .int n => Binary64.leastOverflow ≤ n.natAbs
  | _ => False

/-- The check compares the value of a field as a double. -/
def Check.Weighs (c : Check) (kind : FieldKind) : Prop :=
  match c with
  | .required => kind = .number
  | .bound _ _ => True
  | _ => False

/-- The check looks at the value as it is displayed. -/
def Check.Shows (c : Check) (v : Value) : Prop :=
  match c with
  | .length _ _ => v.items? = none
  | .pattern _ => True
  | _ => False

/-- A rule of a document that is compiled to a check which compares the value. -/
def ValidationRule.Weighs (r : ValidationRule) (kind : FieldKind) : Prop :=
  r.kind = "min" ∨ r.kind = "max" ∨ (r.kind = "required" ∧ kind = .number)

/-- A check that compares the value as a double is come to: the value passes all before it. -/
def Weighed (kind : FieldKind) (v : Value) (rules : List Rule) : Prop :=
  ∃ before r after, rules = before ++ r :: after
    ∧ (∀ r' ∈ before, r'.check.passes kind v = .ok true) ∧ r.check.Weighs kind

/-- The value of a field is an integer that is too large for a check that gets it. -/
def FieldSchema.Overflows (s : FieldSchema) (v : Value) : Prop :=
  ∃ w, s.kind.coerceInput v = .ok w ∧ w.IsTooLarge ∧ s.kind.typeFault? w = none
    ∧ Weighed s.kind w s.rules

/-- So is what an instance of a group has for one of the members. -/
def GroupSchema.InstanceOverflows (s : GroupSchema) (item : Value) : Prop :=
  ∃ ms, item = .object ms
    ∧ ∃ e ∈ s.members.zipIdx, e.1.schema.Overflows (GroupSchema.read e.2 e.1.key ms).2

end Formwork

namespace Formwork.Proofs

open Formwork

/-- The only fault of range in validation. -/
def IsOverflow (f : RangeFault) : Prop := f = .integerTooLarge

/-- The value of a field overflows, or an instance of a group that is looked at. -/
def Overflows (s : Schema) (values : Members) : Prop :=
  (∃ e ∈ s.fields, e.2.Overflows (groupValue values e.1))
    ∨ ∃ e ∈ s.groups, ∃ items, instances? (groupValue values e.1) = some items
      ∧ ∃ item ∈ e.2.examined items, e.2.InstanceOverflows item

/-! ## Checks -/

theorem isOverflow : IsOverflow .integerTooLarge := rfl

/-- A step that needs the double of an integer, and nothing else, fails when there is none. -/
theorem needsDouble_fails {α : Type} {n : Int} {x : Except RangeFault α}
    (hsome : ∀ y, Binary64.ofInt? n = some y → ∃ a, x = .ok a)
    (hnone : Binary64.ofInt? n = none → x = .error .integerTooLarge) :
    Fails x IsOverflow (Value.int n).IsTooLarge := by
  have hlarge : Binary64.ofInt? n = none ↔ (Value.int n).IsTooLarge := ofInt?_eq_none_iff
  rw [← hlarge]
  cases hdouble : Binary64.ofInt? n with
  | none => exact ⟨fun _ => ⟨_, isOverflow, hnone hdouble⟩, fun hno => absurd rfl hno⟩
  | some y => exact ⟨nofun, fun _ => hsome y hdouble⟩

theorem double?_fails (v : Value) : Fails v.double? IsOverflow v.IsTooLarge := by
  cases v with
  | int n =>
      exact needsDouble_fails (fun y hy => ⟨some y, by rw [Value.double?, hy]⟩)
        fun hnone => by rw [Value.double?, hnone]
  | _ => exact Fails.ok _

theorem isDefinedNumber_fails (v : Value) : Fails v.isDefinedNumber IsOverflow v.IsTooLarge := by
  cases v with
  | int n =>
      exact needsDouble_fails (fun y hy => ⟨true, by rw [Value.isDefinedNumber, hy]; rfl⟩)
        fun hnone => by rw [Value.isDefinedNumber, hnone]; rfl
  | _ => exact Fails.ok _

/-- Whether a value is given is asked of its double for numbers only. -/
theorem isGiven_fails (kind : FieldKind) (v : Value) :
    Fails (v.isGiven kind) IsOverflow (kind = .number ∧ v.IsTooLarge) := by
  cases kind with
  | number => exact (isDefinedNumber_fails v).congr (by simp)
  | _ => cases v <;> exact Fails.ok_of_not _ (by simp)

/-- Nothing that has too many digits to be shown is blank. -/
theorem isBlank_of_hidden {v : Value} (hv : v.isWritable = false) : v.isBlank = false := by
  cases v with
  | null | str => cases hv
  | bool | int | float | list | object => rfl

/-- **A check of a value as it is displayed has no answer when the value cannot be.** -/
theorem passes_hidden {c : Check} {v : Value} (hc : c.Shows v) (hv : v.isWritable = false)
    (kind : FieldKind) : c.passes kind v = .error .integerTooLong := by
  have hshown : v.shown = .error .integerTooLong := by
    rw [Value.shown, Value.display?, hv, if_neg Bool.false_ne_true]
  have hblank := isBlank_of_hidden hv
  cases c with
  | length side limit =>
      have hlength : v.shownLength = v.shown.map String.length := by
        cases v with
        | str | null | bool | float => cases hv
        | list items => cases hc
        | int | object => rfl
      rw [Check.passes, hblank, if_neg Bool.false_ne_true, hlength, hshown]
      rfl
  | pattern e =>
      rw [Check.passes, hblank, if_neg Bool.false_ne_true, hshown]
      rfl
  | required | bound | date | custom => exact hc.elim

/-- A value that can be displayed is shown to the checks that look at it so. -/
theorem passes_shown {c : Check} {v : Value} (hc : (∃ side limit, c = .length side limit)
    ∨ ∃ e, c = .pattern e) (hv : ¬(c.Shows v ∧ v.isWritable = false)) (kind : FieldKind) :
    ∃ passed, c.passes kind v = .ok passed := by
  have hshown : v.isWritable = true → v.shown = .ok v.display := fun hwritable => by
    rw [Value.shown, Value.display?, hwritable, if_pos rfl]
  have hwritable : c.Shows v → v.isWritable = true := by simpa using hv
  rcases hc with ⟨side, limit, rfl⟩ | ⟨e, rfl⟩
  · have hlength : ∃ n, v.shownLength = .ok n := by
      cases v with
      | str s => exact ⟨_, rfl⟩
      | list items => exact ⟨_, rfl⟩
      | null | bool | int | float | object =>
          exact ⟨_, congrArg (Except.map String.length) (hshown (hwritable rfl))⟩
    obtain ⟨n, hn⟩ := hlength
    rw [Check.passes, hn]
    split <;> exact ⟨_, rfl⟩
  · rw [Check.passes, hshown (hwritable trivial)]
    split <;> exact ⟨_, rfl⟩

/-- **Any other check fails exactly when it compares an integer that is too large as a double.** -/
theorem passes_fails {c : Check} {v : Value} (h : ¬(c.Shows v ∧ v.isWritable = false))
    (kind : FieldKind) :
    Fails (c.passes kind v) IsOverflow (c.Weighs kind ∧ v.IsTooLarge) := by
  cases c with
  | required => exact isGiven_fails kind v
  | bound side limit =>
      rw [Check.passes]
      split
      · rename_i hblank
        have hnumber : ¬v.IsTooLarge := by
          cases v with
          | int n => cases hblank
          | _ => exact id
        exact Fails.ok_of_not _ (by simp [hnumber])
      · exact ((double?_fails v).map _).congr (by simp [Check.Weighs])
  | length side limit =>
      exact ⟨fun hp => hp.1.elim, fun _ => passes_shown (.inl ⟨_, _, rfl⟩) h kind⟩
  | pattern e => exact ⟨fun hp => hp.1.elim, fun _ => passes_shown (.inr ⟨_, rfl⟩) h kind⟩
  | date | custom => exact Fails.ok_of_not _ (by simp [Check.Weighs])

theorem passes_eq_hidden_iff {c : Check} {kind : FieldKind} {v : Value} :
    c.passes kind v = .error .integerTooLong ↔ c.Shows v ∧ v.isWritable = false := by
  refine ⟨fun h => ?_, fun ⟨hc, hv⟩ => passes_hidden hc hv kind⟩
  by_contra hno
  have hfails := passes_fails hno kind
  by_cases hweighs : c.Weighs kind ∧ v.IsTooLarge
  · obtain ⟨e, rfl, he⟩ := hfails.fails hweighs
    rw [h] at he
    cases he
  · obtain ⟨passed, hpassed⟩ := hfails.answers hweighs
    rw [h] at hpassed
    cases hpassed

/-- What a rule has to say fails with its check, but for a value that is not shown to it. -/
theorem rejection?_fails (kind : FieldKind) (v : Value) (r : Rule) :
    Fails (r.rejection? kind v) IsOverflow (r.check.Weighs kind ∧ v.IsTooLarge) := by
  unfold Rule.rejection?
  by_cases hhidden : r.check.Shows v ∧ v.isWritable = false
  · have hweighs : ¬r.check.Weighs kind := by
      have hshows := hhidden.1
      cases hc : r.check with
      | length | pattern => exact id
      | required | bound | date | custom =>
          rw [hc] at hshows
          exact hshows.elim
    rw [passes_hidden hhidden.1 hhidden.2]
    exact Fails.ok_of_not _ fun h => hweighs h.1
  · have hfails := passes_fails hhidden kind
    constructor
    · intro hp
      obtain ⟨e, rfl, he⟩ := hfails.fails hp
      exact ⟨_, isOverflow, by rw [he]⟩
    · intro hp
      obtain ⟨passed, hpassed⟩ := hfails.answers hp
      rw [hpassed]
      cases passed <;> exact ⟨_, rfl⟩

theorem rejection?_eq_none_iff {kind : FieldKind} {v : Value} {r : Rule} :
    r.rejection? kind v = .ok none ↔ r.check.passes kind v = .ok true := by
  unfold Rule.rejection?
  split <;> simp [*]

/-! ## Fields -/

theorem weighed_nil {kind : FieldKind} {v : Value} : ¬Weighed kind v [] := by
  rintro ⟨before, r, after, heq, -⟩
  cases before <;> cases heq

theorem weighed_cons {kind : FieldKind} {v : Value} {r : Rule} {rules : List Rule} :
    Weighed kind v (r :: rules) ↔
      r.check.Weighs kind ∨ (r.check.passes kind v = .ok true ∧ Weighed kind v rules) := by
  constructor
  · rintro ⟨before, r', after, heq, hbefore, hweighs⟩
    cases before with
    | nil =>
        cases heq
        exact .inl hweighs
    | cons first before =>
        cases heq
        obtain ⟨hfirst, hrest⟩ := List.forall_mem_cons.mp hbefore
        exact .inr ⟨hfirst, before, r', after, rfl, hrest, hweighs⟩
  · rintro (hweighs | ⟨hpasses, before, r', after, rfl, hbefore, hweighs⟩)
    · exact ⟨[], r, rules, rfl, List.forall_mem_nil _, hweighs⟩
    · exact ⟨r :: before, r', after, rfl, List.forall_mem_cons.mpr ⟨hpasses, hbefore⟩, hweighs⟩

/-- The rules fail on an integer that is too large when one that weighs it is come to. -/
theorem failure?_fails (kind : FieldKind) (v : Value) (rules : List Rule) :
    Fails (FieldSchema.failure? kind v rules) IsOverflow
      (v.IsTooLarge ∧ Weighed kind v rules) := by
  induction rules with
  | nil => exact Fails.ok_of_not _ fun h => weighed_nil h.2
  | cons r rules ih =>
      rw [FieldSchema.failure?, weighed_cons, ← rejection?_eq_none_iff]
      refine ((rejection?_fails kind v r).bind
        (q := v.IsTooLarge ∧ r.rejection? kind v = .ok none ∧ Weighed kind v rules) ?_).congr ?_
      · intro rejection hrejection
        cases rejection with
        | none => exact ih.congr (by simp [hrejection])
        | some j => exact Fails.ok_of_not _ (by simp [hrejection])
      · tauto

/-- The chain of a field. -/
theorem fieldValidate_fails (s : FieldSchema) (v : Value) :
    Fails (s.validate v) IsOverflow (s.Overflows v) := by
  unfold FieldSchema.validate FieldSchema.Overflows
  cases s.kind.coerceInput v with
  | error f => exact Fails.ok_of_not _ nofun
  | ok w =>
      simp only [Except.ok.injEq, exists_eq_left']
      cases s.kind.typeFault? w with
      | some r => exact Fails.ok_of_not _ (by simp)
      | none =>
          refine ((failure?_fails s.kind w s.rules).bind (q := False) fun failed _ => ?_).congr ?_
          · cases failed <;> exact Fails.ok _
          · simp

/-! ## Groups -/

theorem memberFaults_fails {all : List Member} {ms : Members} {place : Nat}
    {members : List Member} :
    Fails (GroupSchema.memberFaults all ms place members) IsOverflow
      (∃ e ∈ members.zipIdx place,
        e.1.schema.Overflows (GroupSchema.read e.2 e.1.key ms).2) := by
  induction members generalizing place with
  | nil => exact Fails.ok_of_not _ (by simp)
  | cons m rest ih =>
      have hrest : Fails (GroupSchema.memberFaults all ms (place + 1) rest) IsOverflow _ := ih
      rw [GroupSchema.memberFaults, List.zipIdx_cons]
      simp only [List.exists_mem_cons_iff]
      refine (fieldValidate_fails m.schema _).bind fun answer _ => ?_
      cases answer with
      | ok w => exact hrest
      | error r => exact (hrest.bind fun faults _ => Fails.ok _).congr (by simp)

theorem instanceFaults_fails (s : GroupSchema) (item : Value) :
    Fails (s.instanceFaults item) IsOverflow (s.InstanceOverflows item) := by
  unfold GroupSchema.InstanceOverflows
  cases item with
  | object ms => exact memberFaults_fails.congr (by simp)
  | _ => exact Fails.ok_of_not _ (by simp)

theorem itemFaults_fails (s : GroupSchema) (index : Nat) (items : List Value) :
    Fails (s.itemFaults index items) IsOverflow (∃ item ∈ items, s.InstanceOverflows item) := by
  induction items generalizing index with
  | nil => exact Fails.ok_of_not _ (by simp)
  | cons item rest ih =>
      rw [GroupSchema.itemFaults]
      exact ((instanceFaults_fails s item).bind fun faults _ =>
        (ih (index + 1)).bind fun more _ => Fails.ok _).congr (by simp)

/-- Of the value of a group, the instances that are looked at can overflow. -/
theorem issues_fails (s : GroupSchema) (v : Value) :
    Fails (s.issues v) IsOverflow
      (∃ items, instances? v = some items
        ∧ ∃ item ∈ s.examined items, s.InstanceOverflows item) := by
  cases hv : instances? v with
  | none =>
      cases v with
      | null => cases hv
      | list items => cases hv
      | bool _ | int _ | float _ | str _ | object _ => exact Fails.ok_of_not _ (by simp)
  | some items =>
      rw [issues_of_instances hv]
      refine Fails.map (((itemFaults_fails s 0 (s.examined items)).bind
        (q := False) fun found _ => ?_).congr (by simp)) _
      -- what was found is told or the length is, and neither is compared as a double
      cases s.tooLong? items.length with
      | some r => exact Fails.ok _
      | none =>
          cases found with
          | cons f more => exact Fails.ok _
          | nil => cases s.tooShort? items.length <;> exact Fails.ok _

/-! ## The whole report -/

theorem validate_fails (s : Schema) (values : Members) :
    Fails (s.validate values) IsOverflow (Overflows s values) := by
  rw [validate_eq]
  refine ((Fails.mapM fun e _ => (fieldValidate_fails e.2 _).map _).bind fun own _ =>
    (Fails.mapM fun e _ => issues_fails e.2 _).bind fun grouped _ => Fails.ok _).congr ?_
  simp [Overflows]

/-! ## Rules of documents -/

theorem name_of_ofName? {name : String} {k : RuleKind} (h : RuleKind.ofName? name = some k) :
    k.name = name :=
  eq_of_beq (List.find?_some (p := fun k : RuleKind => k.name == name) h)

/-- The check of a rule compares the value as a double only when the rule says so. -/
theorem weighs_of_compile {validators : Ordered CustomValidator} {fieldId : String}
    {r : ValidationRule} {c : Rule} {kind : FieldKind}
    (h : r.compile validators fieldId = .ok c) (hweighs : c.check.Weighs kind) : r.Weighs kind := by
  unfold ValidationRule.compile at h
  split at h
  · cases h
  · rename_i k hk
    obtain ⟨check, hcheck, h⟩ := bind_eq_ok.mp h
    obtain ⟨message, -, heq⟩ := bind_eq_ok.mp h
    cases heq
    have hname := name_of_ofName? hk
    unfold ValidationRule.Weighs
    rw [← hname]
    cases k with
    | required =>
        cases hcheck
        exact .inr (.inr ⟨rfl, hweighs⟩)
    | min => exact .inl rfl
    | max => exact .inr (.inl rfl)
    | minLength | maxLength | pattern | minDate | maxDate | custom =>
        obtain ⟨x, -, rfl⟩ := map_eq_ok.mp hcheck
        exact hweighs.elim

/-- Values overflow only where a rule of the field compares them. -/
theorem weighs_of_overflows {validators : Ordered CustomValidator} {f : Field} {c : FieldSchema}
    {v : Value} (h : f.compile validators = .ok c) (hv : c.Overflows v) :
    ∃ r ∈ f.validation, r.Weighs f.kind := by
  obtain ⟨hkind, hrules⟩ := field_compile_eq_ok h
  obtain ⟨w, -, -, -, before, rule, after, heq, -, hweighs⟩ := hv
  obtain ⟨r, hr, hcompile⟩ := mem_mapM hrules (y := rule) (by rw [heq]; simp)
  exact ⟨r, hr, weighs_of_compile hcompile (hkind ▸ hweighs)⟩

theorem exists_weighs_of_overflows {validators : Ordered CustomValidator} {d : Form}
    {schema : Schema} (h : d.compile validators = .ok schema) {values : Members}
    (hover : Overflows schema values) :
    ∃ f ∈ renderedFields d, ∃ r ∈ f.validation, r.Weighs f.kind := by
  rcases hover with ⟨e, he, hv⟩ | ⟨e, he, items, -, item, -, ms, -, m, hm, hv⟩
  · obtain ⟨f, hf, -, hcompile⟩ := field_of_mem_schema h he
    exact ⟨f, List.mem_of_mem_filter hf, weighs_of_overflows hcompile hv⟩
  · obtain ⟨owner, hgroup⟩ := group_of_mem_schema h he
    obtain ⟨f, hf, c, hcompile, heq⟩ :=
      field_of_mem_members hgroup (List.mem_of_getElem? (List.mem_zipIdx_iff_getElem?.mp hm))
    rw [heq] at hv
    exact ⟨f, (mem_membersOf.mp hf).1, weighs_of_overflows hcompile hv⟩

/--
**Validation reports, but for an integer past the range of doubles.**

Whatever the values are, validation by a compiled schema gives a list of issues unless a check that
compares its value as a double is come to with an integer that has none; then, and only then, it has no
answer. So it always reports for a form without bounds and without numbers that are required.
-/
theorem validation_answers {validators : Ordered CustomValidator} {d : Form} {schema : Schema}
    (h : d.compile validators = .ok schema) :
    (∀ values : Members,
        (¬Overflows schema values ∧ ∃ issues, schema.validate values = .ok issues)
          ∨ (Overflows schema values ∧ schema.validate values = .error .integerTooLarge))
      ∧ ((∀ f ∈ renderedFields d, ∀ r ∈ f.validation, ¬r.Weighs f.kind) →
          ∀ values : Members, ∃ issues, schema.validate values = .ok issues) := by
  refine ⟨fun values => ?_, fun hplain values => ?_⟩
  · by_cases hover : Overflows schema values
    · obtain ⟨e, he, herror⟩ := (validate_fails schema values).fails hover
      exact .inr ⟨hover, he ▸ herror⟩
    · exact .inl ⟨hover, (validate_fails schema values).answers hover⟩
  · refine (validate_fails schema values).answers fun hover => ?_
    obtain ⟨f, hf, r, hr, hweighs⟩ := exists_weighs_of_overflows h hover
    exact hplain f hf r hr hweighs

/-! ## An amount -/

/-- A form whose only field is a number from one on. -/
def amountForm : Form :=
  ⟨none, none, "1.0",
    [fieldBlock "main" [{ textField "amount" with
      kind := .number, validation := [⟨"min", some (.real (.finite 1)), "Too small"⟩] }]], none⟩

/-- The chain of the amount. -/
def amountSchema : FieldSchema :=
  ⟨"amount", .number, [⟨.min, .bound .least (.finite 1), "Too small"⟩]⟩

theorem compile_amountForm : amountForm.compile [] = .ok ⟨[("amount", amountSchema)], []⟩ := by
  rfl

/-- An amount past the range of doubles overflows, since the only rule compares it. -/
theorem amount_overflows {n : Nat} (h : Binary64.leastOverflow ≤ n) :
    Overflows ⟨[("amount", amountSchema)], []⟩ [("amount", .int n)] :=
  .inl ⟨_, List.mem_singleton_self _, .int n, rfl, h, rfl, [], _, [], rfl, List.forall_mem_nil _,
    trivial⟩

theorem leastOverflow_le : Binary64.leastOverflow ≤ 10 ^ 400 := by decide +kernel

/-- An amount of `10^400` is answered with the error of the comparison. -/
theorem validation_answers_amount :
    amountForm.compile [] = .ok ⟨[("amount", amountSchema)], []⟩
      ∧ Schema.validate ⟨[("amount", amountSchema)], []⟩ [("amount", .int (10 ^ 400 : Nat))] =
        .error .integerTooLarge := by
  refine ⟨compile_amountForm, ?_⟩
  rcases (validation_answers compile_amountForm).1 [("amount", .int (10 ^ 400 : Nat))] with
    ⟨hfine, -⟩ | ⟨-, herror⟩
  · exact absurd (amount_overflows leastOverflow_le) hfine
  · exact herror

/-- No list of issues is given for it, although the form has no custom rule. -/
theorem amount_without_report :
    amountForm.compile [] = .ok ⟨[("amount", amountSchema)], []⟩
      ∧ (∀ f ∈ renderedFields amountForm, ∀ r ∈ f.validation, r.kind ≠ "custom")
      ∧ ∀ issues, Schema.validate ⟨[("amount", amountSchema)], []⟩
          [("amount", .int (10 ^ 400 : Nat))] ≠ .ok issues := by
  refine ⟨compile_amountForm, by decide, fun issues hissues => ?_⟩
  exact (validate_fails _ _).answers_iff.mp ⟨issues, hissues⟩ (amount_overflows leastOverflow_le)

end Formwork.Proofs
