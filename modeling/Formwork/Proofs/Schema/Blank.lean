import Formwork.Proofs.Schema.Chain

/-!
# Values that are not given

A value that is missing, null or the empty text says nothing, and only `required` and custom rules
have anything to say about it. So a field without such rules (`Field.IsOptional`) accepts it, and
its chain has no part in the report of the form.

For the empty text of a check mark this is not so. Each kind of field has its own way to leave it
alone: a number takes it for null, and to the others a text is of the right type. But a check mark
takes no text other than two words for a value, and its type is boolean, so the empty text is told
to be of the wrong type.
-/

namespace Formwork

/-- The field has no rule that asks for a value, and none whose check is unknown. -/
def Field.IsOptional (f : Field) : Prop :=
  ∀ r ∈ f.validation, r.kind ≠ "required" ∧ r.kind ≠ "custom"

instance (f : Field) : Decidable f.IsOptional :=
  inferInstanceAs (Decidable (∀ r ∈ f.validation, r.kind ≠ "required" ∧ r.kind ≠ "custom"))

/-- The value is null, or the empty text for a field that is no check mark. -/
def FieldKind.LeavesOut (k : FieldKind) (v : Value) : Prop :=
  v = .null ∨ (v = .str "" ∧ k ≠ .checkbox)

end Formwork

namespace Formwork.Proofs

open Formwork

variable {validators : Ordered CustomValidator} {f : Field} {s : FieldSchema}

/-- A check passes a value that is not given, unless it is there to ask for one. -/
theorem passes_of_isBlank {fieldId : String} {r : ValidationRule} {c : Rule}
    (h : r.compile validators fieldId = .ok c) (hrequired : r.kind ≠ "required")
    (hcustom : r.kind ≠ "custom") {kind : FieldKind} {v : Value} (hv : v.isBlank = true) :
    c.check.passes kind v = .ok true := by
  unfold ValidationRule.compile at h
  split at h
  · cases h
  · rename_i k hk
    obtain ⟨check, hcheck, h⟩ := bind_eq_ok.mp h
    obtain ⟨message, -, heq⟩ := bind_eq_ok.mp h
    cases heq
    have hname := name_of_ofName? hk
    cases k with
    | required => exact absurd hname.symm hrequired
    | custom => exact absurd hname.symm hcustom
    | minLength | maxLength | pattern | min | max | minDate | maxDate =>
        obtain ⟨x, -, rfl⟩ := map_eq_ok.mp hcheck
        simp [Check.passes, hv]

/-- What a kind makes of a value that is not given has the type of the kind, and is not given
either. -/
theorem coerceInput_leavesOut {k : FieldKind} {v : Value} (h : k.LeavesOut v) :
    ∃ w, k.coerceInput v = .ok w ∧ k.typeFault? w = none ∧ w.isBlank = true := by
  rcases h with rfl | ⟨rfl, hcheck⟩
  · exact ⟨.null, by cases k <;> rfl, by cases k <;> rfl, rfl⟩
  · cases k with
    | checkbox => exact absurd rfl hcheck
    | number => exact ⟨.null, rfl, rfl, rfl⟩
    | text | dropdown | autocomplete | radio | date | file | button =>
        exact ⟨.str "", rfl, rfl, rfl⟩

theorem accepts_leavesOut (hs : f.compile validators = .ok s) (hf : f.IsOptional) {v : Value}
    (hv : f.kind.LeavesOut v) : ∃ w, w.isBlank = true ∧ f.Accepts validators v w := by
  obtain ⟨w, hread, htype, hblank⟩ := coerceInput_leavesOut hv
  refine ⟨w, hblank, hread, htype, fun r hr => ?_⟩
  obtain ⟨c, -, hc⟩ := exists_mem_of_mapM (field_compile_eq_ok hs).2 hr
  exact ⟨c, hc, passes_of_isBlank hc (hf r hr).1 (hf r hr).2 hblank⟩

/-- A field that has no issue has no part in the report of a form. -/
theorem validate_without {schema : Schema} {before after : Ordered FieldSchema} {path : String}
    (hfields : schema.fields = before ++ (path, s) :: after) {values : Members}
    (hnone : Schema.fieldIssues path s (groupValue values path) = .ok []) :
    schema.validate values = (Schema.mk (before ++ after) schema.groups).validate values := by
  simp only [validate_eq, hfields, List.mapM_append, List.mapM_cons, hnone, bind_assoc, pure_bind,
    ok_bind, List.flatten_append, List.flatten_cons, List.nil_append]

/--
**A value that is not given only fails `required`.**

A field without `required` and custom rules accepts null, and the empty text unless it is a check
mark: its chain gives no issue, and the report of a form in which the value is missing or null or
empty is the same as without the field. Of a check mark the empty text has one issue whatever the
rules are, which is that of its type.
-/
theorem blank_accepted (hs : f.compile validators = .ok s) (hf : f.IsOptional) :
    (∀ v, f.kind.LeavesOut v →
        (∃ w, w.isBlank = true ∧ s.validate v = .ok (.ok w))
          ∧ ∀ (schema : Schema) before after path values,
              schema.fields = before ++ (path, s) :: after → groupValue values path = v →
              schema.validate values =
                (Schema.mk (before ++ after) schema.groups).validate values)
      ∧ (f.kind = .checkbox → ∀ path, Schema.fieldIssues path s (.str "") =
          .ok [⟨path, "Must be true or false", "bool_type"⟩]) := by
  refine ⟨fun v hv => ?_, fun hkind path => ?_⟩
  · obtain ⟨w, hblank, hw⟩ := accepts_leavesOut hs hf hv
    refine ⟨⟨w, hblank, (validate_eq_ok_iff hs).mpr hw⟩, ?_⟩
    intro schema before after path values hfields hvalue
    exact validate_without hfields (hvalue ▸ fieldIssues_of_accepts hs hw path)
  · have htype : f.Rejects validators (.str "") ⟨"bool_type", "Must be true or false"⟩ :=
      .type (w := .str "") (by rw [hkind]; rfl) (by rw [hkind]; rfl)
    exact fieldIssues_of_rejects hs htype path

/-! ## A date and a check mark -/

/-- A date from some day on, written with ten characters at most. -/
def startField : Field :=
  { textField "start" with
    kind := .date
    validation := [⟨"minDate", some (.text "2024-01-01"), ""⟩, ⟨"maxLength", some (.int 10), ""⟩,
      ⟨"pattern", some (.text "-"), ""⟩] }

/-- An empty date is accepted, though the empty text is no date and has no dash; and a form that
asks for nothing else has nothing to report when it is missing. -/
theorem blank_accepted_start :
    startField.IsOptional ∧ ∃ s, startField.compile [] = .ok s
      ∧ (∃ w, w.isBlank = true ∧ s.validate (.str "") = .ok (.ok w))
      ∧ (Schema.mk [("start", s)] []).validate [] = .ok [] := by
  have hoptional : startField.IsOptional := by decide
  obtain ⟨s, hs⟩ : ∃ s, startField.compile [] = .ok s := ⟨_, rfl⟩
  have haccepted := (blank_accepted hs hoptional).1
  refine ⟨hoptional, s, hs, (haccepted _ (.inr ⟨rfl, by decide⟩)).1, ?_⟩
  exact (haccepted _ (.inl rfl)).2 ⟨[("start", s)], []⟩ [] [] "start" [] rfl rfl

/-- A check mark without rules. -/
def termsField : Field := { textField "terms" with kind := .checkbox }

/-- The chain of the check mark. -/
def termsSchema : FieldSchema := ⟨"terms", .checkbox, []⟩

/-- The empty text is not accepted for it, although no rule requires anything. -/
theorem blank_terms_refused :
    termsField.IsOptional ∧ termsField.compile [] = .ok termsSchema
      ∧ (∀ w, termsSchema.validate (.str "") ≠ .ok (.ok w))
      ∧ (Schema.mk [("terms", termsSchema)] []).validate [("terms", .str "")] =
          .ok [⟨"terms", "Must be true or false", "bool_type"⟩] :=
  ⟨by decide, rfl, nofun, rfl⟩

end Formwork.Proofs
