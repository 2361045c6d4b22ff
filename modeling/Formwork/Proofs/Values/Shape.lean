import Formwork.Proofs.Number.PlainDecimal
import Formwork.Proofs.Schema.Compiled
import Formwork.Proofs.Template.Scoping
import Formwork.Proofs.Values.SentBack

/-!
# Initial values have the shape of the schema

The schema and the initial values are made from the same fields by two separate walks, and
agree on what there is: a value for every path of a field and every id of a group; and in a
group that starts with an instance, a value for every key of its members. That holds even
where a field and a group, or two fields, share a name, since both walks let the later entry
of a name replace the earlier one.

Initial values need not be there, though. The output of a default template of a choice is
read as a number when it has the form of one, and an integer with too many digits has none
(`Overlong`). No other default fails.
-/

namespace Formwork

/-- The default of a choice is a template whose output is an integer with too many digits. -/
def Field.Overlong (f : Field) (context : Members) : Prop :=
  f.kind = .radio ∧ Template.isTemplate f.default.toValue = true
    ∧ ∃ text, Template.evaluateValue Template.defaultRules f.default.toValue context = .ok text
      ∧ NumericText.Overlong text

/-- What the default of a field is evaluated in: a group starts with its first instance. -/
def Field.startScope (f : Field) (context : Members) : Members :=
  match f.memberOf? with
  | some g => Scope.ofInstance context g 0 []
  | none => context

end Formwork

namespace Formwork.Proofs

open Formwork

/-- Initial values have the shape of a schema for the fields. -/
structure SameShape (fields : List Field) (schema : Schema) (values : Members) : Prop where
  /-- There is a value for every field and every group, and no other. -/
  keys : ∀ key, key ∈ Ordered.keys values ↔
    key ∈ Ordered.keys schema.fields ∨ key ∈ Ordered.keys schema.groups
  /-- Exactly the groups without declared defaults start with no instance. -/
  empty : ∀ e ∈ schema.groups, Ordered.get? values e.1 = some (.list []) ↔
    ∀ f ∈ membersOf fields e.1, f.default.isDeclared = false
  /-- The others start with one, which has a value for every member and no other. -/
  instances : ∀ e ∈ schema.groups, (∃ f ∈ membersOf fields e.1, f.default.isDeclared = true) →
    ∃ ms, Ordered.get? values e.1 = some (.list [.object ms])
      ∧ ∀ key, key ∈ Ordered.keys ms ↔ key ∈ e.2.members.map Member.key

/-! ## When there are initial values -/

section Answers

variable {fields : List Field} {c : Members}

/-- A template is a text, and is evaluated as one. -/
theorem defaultValue_template {v : Value} (h : Template.isTemplate v = true) (kind : FieldKind)
    (c : Members) :
    ∃ text, Template.evaluateValue Template.defaultRules v c = .ok text
      ∧ defaultValue v kind c = kind.coerceDefault text := by
  cases v with
  | str s => exact ⟨_, rfl, by rw [defaultValue, if_pos h]⟩
  | _ => cases h

theorem defaultValue_of_not_template {v : Value} (h : Template.isTemplate v = false)
    (kind : FieldKind) (c : Members) : defaultValue v kind c = .ok v := by
  cases v with
  | str s => rw [defaultValue, h, if_neg Bool.false_ne_true]
  | _ => rfl

theorem initialValue_fails (f : Field) (c : Members) :
    Fails (f.initialValue c) NumberFault.IsTooLong (f.Overlong c) := by
  unfold Field.initialValue Field.Overlong
  cases hd : f.default with
  | undeclared | null =>
      exact Fails.ok_of_not _ fun h => Bool.false_ne_true h.2.1
  | scalar s =>
      have hdeclared : (Default.scalar s).isDeclared = true := rfl
      rw [hdeclared, if_pos rfl]
      show Fails (defaultValue s.toValue f.kind c) _
        (f.kind = .radio ∧ Template.isTemplate s.toValue = true
          ∧ ∃ text, Template.evaluateValue Template.defaultRules s.toValue c = .ok text
            ∧ NumericText.Overlong text)
      cases htemplate : Template.isTemplate s.toValue with
      | true =>
          obtain ⟨text, htext, hvalue⟩ := defaultValue_template htemplate f.kind c
          rw [hvalue, htext]
          exact (coerceDefault_fails f.kind text).congr (by simp)
      | false =>
          rw [defaultValue_of_not_template htemplate]
          exact Fails.ok_of_not _ fun h => Bool.false_ne_true h.2.1

theorem entries_fails {α : Type} {key : α → String} {value : α → Except NumberFault Value}
    {p : α → Prop} {xs : List α} (h : ∀ x ∈ xs, Fails (value x) NumberFault.IsTooLong (p x)) :
    Fails (entries key value xs) NumberFault.IsTooLong (∃ x ∈ xs, p x) :=
  Fails.mapM fun x hx => (h x hx).map _

/-- A group without declared defaults evaluates nothing, and has no template either. -/
theorem groupValue_fails (g : String) (members : List Field) (c : Members) :
    Fails (Initial.groupValue g members c) NumberFault.IsTooLong
      (∃ m ∈ members, m.Overlong (Scope.ofInstance c g 0 [])) := by
  rw [groupValue_eq]
  split
  · exact (entries_fails fun m _ => initialValue_fails m _).map _
  · rename_i hnone
    refine Fails.ok_of_not _ ?_
    rintro ⟨m, hm, -, htemplate, -⟩
    refine hnone (List.any_eq_true.mpr ⟨m, hm, ?_⟩)
    cases hd : m.default with
    | undeclared => rw [hd] at htemplate; cases htemplate
    | null => rfl
    | scalar s => rfl

/-- The default of a field outside of groups is evaluated in the context, and that of a member of a
group in the group's scope. -/
theorem overlong_iff : (∃ f ∈ fields, f.Overlong (f.startScope c)) ↔
    (∃ f ∈ ownFields fields, f.Overlong c)
      ∨ ∃ e ∈ groupedFields fields, ∃ f ∈ e.2, f.Overlong (Scope.ofInstance c e.1 0 []) := by
  constructor
  · rintro ⟨f, hf, hover⟩
    have haction : f.kind.isAction = false := by rw [hover.1]; rfl
    cases hg : f.memberOf? with
    | none =>
        rw [Field.startScope, hg] at hover
        rw [Field.memberOf?, haction, if_neg Bool.false_ne_true] at hg
        exact .inl ⟨f, List.mem_filter.mpr ⟨hf, by simp [haction, hg]⟩, hover⟩
    | some g =>
        rw [Field.startScope, hg] at hover
        have hmem : f ∈ membersOf fields g := mem_membersOf.mpr ⟨hf, hg⟩
        have hget : Ordered.get? (groupedFields fields) g = some (membersOf fields g) := by
          rw [get?_groupedFields, if_neg (List.ne_nil_of_mem hmem)]
        exact .inr ⟨(g, membersOf fields g), mem_of_get? hget, f, hmem, hover⟩
  · rintro (⟨f, hf, hover⟩ | ⟨e, he, f, hf, hover⟩)
    · obtain ⟨hmem, hown⟩ := List.mem_filter.mp hf
      have hg : f.memberOf? = none := by
        have hgroup : f.group? = none := by simpa using (Bool.and_eq_true_iff.mp hown).2
        rw [Field.memberOf?, hgroup, ite_self]
      exact ⟨f, hmem, by rwa [Field.startScope, hg]⟩
    · rw [(mem_groupedFields he).1] at hf
      obtain ⟨hmem, hg⟩ := mem_membersOf.mp hf
      exact ⟨f, hmem, by rwa [Field.startScope, hg]⟩

/-- **There are initial values unless the output of a default is too long a number.** -/
theorem initialValues_fails (fields : List Field) (c : Members) :
    Fails (initialValues fields c) NumberFault.IsTooLong
      (∃ f ∈ fields, f.Overlong (f.startScope c)) := by
  rw [initialValues_eq, overlong_iff]
  exact (entries_fails fun f _ => initialValue_fails f c).bind fun own _ =>
    (entries_fails fun e _ => groupValue_fails e.1 e.2 c).map _

end Answers

/-! ## Their shape -/

section Shape

variable {fields : List Field} {c : Members}

theorem keys_initialValues {values : Members} (h : initialValues fields c = .ok values)
    (key : String) : key ∈ Ordered.keys values ↔
      key ∈ (ownFields fields).map Field.id ∨ key ∈ Ordered.keys (groupedFields fields) := by
  rw [initialValues_eq] at h
  obtain ⟨own, hown, h⟩ := bind_eq_ok.mp h
  obtain ⟨grouped, hgrouped, rfl⟩ := map_eq_ok.mp h
  have hkeys : Ordered.keys (own ++ grouped) = Ordered.keys own ++ Ordered.keys grouped :=
    List.map_append
  rw [mem_keys_ofList, hkeys, List.mem_append, keys_entries hown, keys_entries hgrouped]
  rfl

/-- A group has its value even where a field has its id, since groups come later. -/
theorem get?_initialValues {values : Members} (h : initialValues fields c = .ok values)
    {e : String × List Field} (he : e ∈ groupedFields fields) :
    ∃ v, Initial.groupValue e.1 e.2 c = .ok v ∧ Ordered.get? values e.1 = some v := by
  rw [initialValues_eq] at h
  obtain ⟨own, -, h⟩ := bind_eq_ok.mp h
  obtain ⟨grouped, hgrouped, rfl⟩ := map_eq_ok.mp h
  obtain ⟨y, hy, hentry⟩ := exists_mem_of_mapM hgrouped he
  obtain ⟨v, hv, rfl⟩ := map_eq_ok.mp hentry
  refine ⟨v, hv, get?_ofList_append ?_ hy⟩
  rw [keys_entries hgrouped]
  exact nodup_keys_groupedFields fields

theorem groupValue_of_undeclared {g : String} {members : List Field}
    (h : ∀ m ∈ members, m.default.isDeclared = false) :
    Initial.groupValue g members c = .ok (.list []) := by
  rw [groupValue_eq, if_neg]
  simpa using h

theorem groupValue_of_declared {g : String} {members : List Field} {v : Value}
    (h : ∃ m ∈ members, m.default.isDeclared = true)
    (hv : Initial.groupValue g members c = .ok v) :
    ∃ ms, v = .list [.object ms]
      ∧ ∀ key, key ∈ Ordered.keys ms ↔ key ∈ members.map fun m => plainId g m.id := by
  rw [groupValue_eq, if_pos (List.any_eq_true.mpr h)] at hv
  obtain ⟨ms, hms, rfl⟩ := map_eq_ok.mp hv
  refine ⟨Ordered.ofList ms, rfl, fun key => ?_⟩
  rw [mem_keys_ofList, keys_entries hms]

theorem sameShape {validators : Ordered CustomValidator} {blocks : List Block} {schema : Schema}
    (h : Schema.ofBlocks validators blocks = .ok schema) {values : Members}
    (hvalues : initialValues (blocks.flatMap Block.fields) c = .ok values) :
    SameShape (blocks.flatMap Block.fields) schema values := by
  refine ⟨fun key => ?_, fun e he => ?_, fun e he hdeclared => ?_⟩
  · rw [keys_initialValues hvalues, mem_keys_fields h, keys_groups h]
  · obtain ⟨v, hv, hget⟩ := get?_initialValues hvalues (grouped_of_mem_schema h he)
    rw [hget, Option.some.injEq]
    constructor
    · rintro rfl f hf
      by_contra hdecl
      obtain ⟨ms, hms, -⟩ := groupValue_of_declared ⟨f, hf, by simpa using hdecl⟩ hv
      cases hms
    · intro hnone
      rw [groupValue_of_undeclared hnone] at hv
      exact (Except.ok.inj hv).symm
  · obtain ⟨v, hv, hget⟩ := get?_initialValues hvalues (grouped_of_mem_schema h he)
    obtain ⟨ms, rfl, hkeys⟩ := groupValue_of_declared hdeclared hv
    obtain ⟨owner, howner⟩ := group_of_mem_schema h he
    refine ⟨ms, hget, fun key => ?_⟩
    rw [hkeys, (compileGroup_members howner).1]

end Shape

/--
**Initial values have the shape of the schema.**

For a form that is compiled and any context, there are initial values unless the default of a choice
is a template whose output is an integer with too many digits. When there are, they have a value for
every path of a field and every id of a group and for nothing else; a group starts with no instance
exactly when none of its members declares a default, and otherwise with one instance that has a value
for every key of the group's members and for nothing else.
-/
theorem initialValues_sameShape {validators : Ordered CustomValidator} {d : Form} {schema : Schema}
    (h : d.compile validators = .ok schema) (c : Members) :
    ((¬∃ f ∈ renderedFields d, f.Overlong (f.startScope c)) ↔
        ∃ values, d.initialValues c = .ok values)
      ∧ ((∃ f ∈ renderedFields d, f.Overlong (f.startScope c)) →
          ∃ digits, d.initialValues c = .error (.integerTooLong digits))
      ∧ ∀ values, d.initialValues c = .ok values → SameShape (renderedFields d) schema values := by
  have hfails := initialValues_fails (renderedFields d) c
  refine ⟨hfails.answers_iff.symm, fun hover => ?_, fun values hvalues => sameShape h hvalues⟩
  obtain ⟨e, ⟨digits, rfl⟩, herror⟩ := hfails.fails hover
  exact ⟨digits, herror⟩

/-! ## A choice that starts with an entry of the context -/

/-- A template that shows the entry `n` of its context. -/
def entrySource : String := "\x7b\x7bn\x7d\x7d"

theorem evaluateText_entrySource {c : Members} {s : String}
    (h : Ordered.get? c "n" = some (.str s)) :
    Template.evaluateText Template.defaultRules entrySource c = s := by
  have hidle : ∀ r ∈ Template.Rule.builtIn, r.applies entrySource.toList = false := by
    decide
  have hpieces : Template.pieces entrySource.toList =
      [.text [], .mustache "n".toList, .text []] := by
    decide
  have hopens : Template.opensMustache entrySource = true := by decide
  have hrender : Template.render Template.defaultRules entrySource c = .ok (s ++ "") := by
    have hfound : Template.render Template.defaultRules entrySource c =
        ((Template.Operand.ofOption (Ordered.get? c "n")).render >>= fun out =>
          .ok (out ++ "")).mapError .call := by
      rw [defaultRules_eq, Template.render, Template.compile, applyAll_of_idle hidle,
        Template.Tag.read, hpieces]
      rfl
    rw [hfound, h]
    rfl
  rw [Template.evaluateText, hopens, if_pos rfl, hrender]
  exact String.append_empty

/-- A choice that starts with the entry. -/
def choiceField : Field :=
  { textField "choice" with kind := .radio, default := .scalar (.text entrySource) }

/-- A form that has only the choice. -/
def choiceForm : Form := ⟨none, none, "1.0", [fieldBlock "main" [choiceField]], none⟩

/-- The schema of the form. -/
def choiceSchema : Schema := ⟨[("choice", ⟨"choice", .radio, []⟩)], []⟩

/-- A numeral of nines. -/
def nines (n : Nat) : String := String.ofList (List.replicate n '9')

theorem compile_choiceForm : choiceForm.compile [] = .ok choiceSchema := by rfl

theorem overlong_nines {n : Nat} (h : Numeral.maxDigits < n) : NumericText.Overlong (nines n) := by
  have hnine : ∀ c ∈ List.replicate n '9', c = '9' := fun c hc => List.eq_of_mem_replicate hc
  have htrim : Text.trim (List.replicate n '9') = List.replicate n '9' :=
    trim_eq_self fun c hc => hnine c hc ▸ by decide
  obtain ⟨m, rfl⟩ : ∃ m, n = m + 1 := ⟨n - 1, by omega⟩
  have hminus : NumericText.dropMinus (List.replicate (m + 1) '9') = List.replicate (m + 1) '9' :=
    rfl
  rw [NumericText.Overlong, isInteger_eq_true_iff, nines, String.toList_ofList, htrim, hminus,
    List.length_replicate]
  exact ⟨⟨List.cons_ne_nil _ _, fun c hc => hnine c hc ▸ by decide⟩, h⟩

/-- The default of the choice is too long when the entry is. -/
theorem overlong_choiceForm {s : String} (h : NumericText.Overlong s) :
    ∃ f ∈ renderedFields choiceForm, f.Overlong (f.startScope [("n", .str s)]) := by
  refine ⟨choiceField, List.mem_singleton_self _, rfl, by decide, s, ?_, h⟩
  exact congrArg Except.ok (evaluateText_entrySource rfl)

/-- With 4301 nines as the entry, the form has a schema and no initial values. -/
theorem initialValues_sameShape_choice :
    choiceForm.compile [] = .ok choiceSchema
      ∧ ∃ digits, choiceForm.initialValues [("n", .str (nines 4301))] =
        .error (.integerTooLong digits) := by
  refine ⟨compile_choiceForm, ?_⟩
  exact (initialValues_sameShape compile_choiceForm _).2.1
    (overlong_choiceForm (overlong_nines (by decide)))

/-- So nothing has the keys of the schema there. -/
theorem choice_without_values :
    choiceForm.compile [] = .ok choiceSchema
      ∧ ¬∃ values, choiceForm.initialValues [("n", .str (nines 4301))] = .ok values
        ∧ ∀ key, key ∈ Ordered.keys values ↔ key ∈ Ordered.keys choiceSchema.fields := by
  refine ⟨compile_choiceForm, ?_⟩
  rintro ⟨values, hvalues, -⟩
  exact (initialValues_fails (renderedFields choiceForm) _).answers_iff.mp ⟨values, hvalues⟩
    (overlong_choiceForm (overlong_nines (by decide)))

end Formwork.Proofs
