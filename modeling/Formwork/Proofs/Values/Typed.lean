import Formwork.Proofs.Schema.Overflow
import Formwork.Proofs.Values.Shape

/-!
# Initial values have the types of their fields

A form opens without a type issue when its defaults are left to templates: whatever a
template renders to, the kind of the field makes a value of it that the kind's own type
check lets pass, as it does the empty value of the kind and null. Literal defaults are
taken as they are, and need not be of the type.

What is left is to see that every chain gets the value that was made for its field. That
takes distinct keys: a group that has the id of a number would give it a list.
-/

namespace Formwork

/-- The codes of issues that say that a value is of the wrong type. -/
def Issue.typeCodes : List String :=
  ["number_type", "bool_type", "string_type", "list_type", "model_type"]

/-- The issue says that a value is of the wrong type. -/
def Issue.IsOfType (i : Issue) : Prop := i.code ∈ Issue.typeCodes

/-- As the kind brings it to the form that rules look at, the value has the type of the kind. -/
def FieldKind.Takes (k : FieldKind) (v : Value) : Prop :=
  ∀ w, k.coerceInput v = .ok w → k.typeFault? w = none

/-- The instance is an object, and what is read of it for each member has the type of its kind. -/
def GroupSchema.TakesInstance (s : GroupSchema) (item : Value) : Prop :=
  ∃ ms, item = .object ms ∧ ∀ e ∈ s.members.zipIdx,
    e.1.schema.kind.Takes (GroupSchema.read e.2 e.1.key ms).2

/-- What the default of a field declares, if anything, is null or a template. -/
def Field.LeftToTemplate (f : Field) : Prop :=
  ∀ s, f.default = .scalar s → Template.isTemplate s.toValue = true

end Formwork

namespace Formwork.Proofs

open Formwork

/-! ## Values of a kind -/

section Kinds

variable {k : FieldKind} {v : Value}

theorem takes_null (k : FieldKind) : k.Takes .null := by
  intro w hw
  cases k <;> cases hw <;> rfl

theorem takes_emptyValue (k : FieldKind) : k.Takes k.emptyValue := by
  intro w hw
  cases k <;> cases hw <;> rfl

/-- A kind that is neither a number nor a check mark takes every text. -/
theorem takes_text (hnumber : k ≠ .number) (hcheck : k ≠ .checkbox) (s : String) :
    k.Takes (.str s) := by
  intro w hw
  cases k with
  | number => exact absurd rfl hnumber
  | checkbox => exact absurd rfl hcheck
  | text | dropdown | autocomplete | radio | date | file | button => cases hw; rfl

theorem takes_bool (b : Bool) : FieldKind.checkbox.Takes (.bool b) := by
  intro w hw
  cases hw
  rfl

/-- A choice takes anything. -/
theorem takes_radio (v : Value) : FieldKind.radio.Takes v := by
  intro w hw
  cases hw
  cases v <;> rfl

theorem takes_coerceNumberDefault (rendered : String) :
    FieldKind.number.Takes (FieldKind.coerceNumberDefault rendered) := by
  have hint : ∀ n, FieldKind.number.Takes (.int n) := fun n w hw => by cases hw; rfl
  have hfloat : ∀ x, FieldKind.number.Takes (.float x) := fun x w hw => by cases hw; rfl
  unfold FieldKind.coerceNumberDefault
  dsimp only
  split
  · exact hint _
  · split
    · split
      · exact hfloat _
      · exact hint _
    · exact hint _

/-- **Whatever a template renders to, the kind takes what it makes of it.** -/
theorem takes_coerceDefault {rendered : String} (h : k.coerceDefault rendered = .ok v) :
    k.Takes v := by
  cases k with
  | number =>
      obtain rfl : FieldKind.coerceNumberDefault rendered = v := Except.ok.inj h
      exact takes_coerceNumberDefault rendered
  | checkbox =>
      obtain rfl := Except.ok.inj h
      exact takes_bool _
  | radio => exact takes_radio v
  | file =>
      obtain rfl := Except.ok.inj h
      split
      · exact takes_null _
      · exact takes_text (by decide) (by decide) _
  | button =>
      obtain rfl := Except.ok.inj h
      exact takes_null _
  | text | dropdown | autocomplete | date =>
      obtain rfl := Except.ok.inj h
      exact takes_text (by decide) (by decide) _

/-- A field that is left to a template starts with a value that its kind takes. -/
theorem takes_initialValue {f : Field} (hf : f.LeftToTemplate) {c : Members}
    (h : f.initialValue c = .ok v) : f.kind.Takes v := by
  unfold Field.initialValue at h
  cases hd : f.default with
  | undeclared =>
      rw [hd] at h
      cases h
      exact takes_emptyValue _
  | null =>
      rw [hd] at h
      cases h
      exact takes_null _
  | scalar s =>
      have hdeclared : f.default.isDeclared = true := by rw [hd]; rfl
      have htemplate : Template.isTemplate f.default.toValue = true := by rw [hd]; exact hf s hd
      obtain ⟨text, -, hvalue⟩ := defaultValue_template htemplate f.kind c
      rw [if_pos hdeclared, hvalue] at h
      exact takes_coerceDefault h

end Kinds

/-! ## What the chains tell -/

section Chains

/-- A rejection does not say that the value is of the wrong type. -/
def Rejection.Typed (r : Rejection) : Prop := r.code ∉ Issue.typeCodes

theorem name_not_typeCode (k : RuleKind) : k.name ∉ Issue.typeCodes := by cases k <;> decide

theorem typed_ofNumber (message : String) : Rejection.Typed (.ofNumber message) :=
  (by decide : "value_error" ∉ Issue.typeCodes)

/-- No rule says that the value is of the wrong type. -/
theorem typed_of_failure {kind : FieldKind} {v : Value} {rules : List Rule} {j : Rejection}
    (h : FieldSchema.failure? kind v rules = .ok (some j)) : Rejection.Typed j := by
  induction rules with
  | nil => cases h
  | cons r rules ih =>
      obtain ⟨rejection, hrejection, h⟩ := bind_eq_ok.mp h
      cases rejection with
      | none => exact ih h
      | some j' =>
          cases h
          unfold Rule.rejection? at hrejection
          split at hrejection
          · cases hrejection
          · cases hrejection
            exact name_not_typeCode r.kind
          · cases hrejection
            exact typed_ofNumber _
          · cases hrejection

/-- The chain of a field finds nothing wrong with the type of a value that the kind takes. -/
theorem typed_of_validate {s : FieldSchema} {v : Value} {r : Rejection} (hv : s.kind.Takes v)
    (h : s.validate v = .ok (.error r)) : Rejection.Typed r := by
  unfold FieldSchema.validate at h
  split at h
  · cases h
    exact typed_ofNumber _
  · rename_i w hw
    rw [hv w hw] at h
    obtain ⟨failed, hfailed, h⟩ := bind_eq_ok.mp h
    cases failed with
    | none => cases h
    | some j =>
        cases h
        exact typed_of_failure hfailed

theorem typed_of_memberFaults {all : List Member} {ms : Members} {place : Nat}
    {members : List Member} {faults : List GroupFault}
    (hms : ∀ e ∈ members.zipIdx place,
      e.1.schema.kind.Takes (GroupSchema.read e.2 e.1.key ms).2)
    (h : GroupSchema.memberFaults all ms place members = .ok faults) :
    ∀ f ∈ faults, Rejection.Typed f.rejection := by
  induction members generalizing place faults with
  | nil => cases h; exact List.forall_mem_nil _
  | cons m rest ih =>
      rw [List.zipIdx_cons, List.forall_mem_cons] at hms
      obtain ⟨hm, hrest⟩ := hms
      rw [GroupSchema.memberFaults] at h
      obtain ⟨answer, hanswer, h⟩ := bind_eq_ok.mp h
      cases answer with
      | ok w => exact ih hrest h
      | error r =>
          obtain ⟨more, hmore, heq⟩ := bind_eq_ok.mp h
          cases heq
          exact List.forall_mem_cons.mpr ⟨typed_of_validate hm hanswer, ih hrest hmore⟩

/-- Of a list, its instances are told of, or its length. -/
theorem faults_cases {s : GroupSchema} {items : List Value} {faults : List GroupFault}
    (h : s.faults (.list items) = .ok faults) :
    s.itemFaults 0 (s.examined items) = .ok faults
      ∨ ∃ r, (s.tooLong? items.length = some r ∨ s.tooShort? items.length = some r)
        ∧ faults = [⟨[], r⟩] := by
  obtain ⟨found, hfound, h⟩ := bind_eq_ok.mp h
  cases hlong : s.tooLong? items.length with
  | some r =>
      rw [hlong] at h
      cases h
      exact .inr ⟨r, .inl rfl, rfl⟩
  | none =>
      rw [hlong] at h
      cases found with
      | cons f more =>
          cases h
          exact .inl hfound
      | nil =>
          cases hshort : s.tooShort? items.length with
          | some r =>
              rw [hshort] at h
              cases h
              exact .inr ⟨r, .inr rfl, rfl⟩
          | none =>
              rw [hshort] at h
              cases h
              exact .inl hfound

theorem code_of_length {s : GroupSchema} {size : Nat} {r : Rejection}
    (h : s.tooLong? size = some r ∨ s.tooShort? size = some r) :
    r.code ∈ ["too_long", "too_short"] := by
  unfold GroupSchema.tooLong? GroupSchema.tooShort? at h
  rcases h with h | h
  all_goals
    split at h
    · split at h <;> cases h
      simp
    · cases h

theorem typed_of_itemFaults {s : GroupSchema} {index : Nat} {items : List Value}
    {faults : List GroupFault} (hitems : ∀ item ∈ items, s.TakesInstance item)
    (h : s.itemFaults index items = .ok faults) : ∀ f ∈ faults, Rejection.Typed f.rejection := by
  induction items generalizing index faults with
  | nil => cases h; exact List.forall_mem_nil _
  | cons item rest ih =>
      obtain ⟨⟨ms, rfl, hms⟩, hrest⟩ := List.forall_mem_cons.mp hitems
      rw [GroupSchema.itemFaults] at h
      obtain ⟨own, hown, h⟩ := bind_eq_ok.mp h
      obtain ⟨more, hmore, heq⟩ := bind_eq_ok.mp h
      cases heq
      intro f hf
      rcases List.mem_append.mp hf with hf | hf
      · obtain ⟨f', hf', rfl⟩ := List.mem_map.mp hf
        exact typed_of_memberFaults hms hown f' hf'
      · exact ih hrest hmore f hf

/-- Of a list of instances that the group takes, no fault is one of type. -/
theorem typed_of_faults {s : GroupSchema} {items : List Value} {faults : List GroupFault}
    (hitems : ∀ item ∈ items, s.TakesInstance item) (h : s.faults (.list items) = .ok faults) :
    ∀ f ∈ faults, Rejection.Typed f.rejection := by
  rcases faults_cases h with hfound | ⟨r, hlength, rfl⟩
  · exact typed_of_itemFaults (fun item hi => hitems item (examined_sublist.mem hi)) hfound
  · have hcodes : ∀ code ∈ ["too_long", "too_short"], code ∉ Issue.typeCodes := by decide
    exact List.forall_mem_singleton.mpr (hcodes _ (code_of_length hlength))

theorem typed_of_issues {s : GroupSchema} {items : List Value} {issues : List Issue}
    (hitems : ∀ item ∈ items, s.TakesInstance item) (h : s.issues (.list items) = .ok issues) :
    ∀ i ∈ issues, ¬i.IsOfType := by
  rw [issues_of_instances rfl] at h
  obtain ⟨faults, hfaults, rfl⟩ := map_eq_ok.mp h
  intro i hi
  obtain ⟨f, hf, rfl⟩ := List.mem_map.mp hi
  exact typed_of_faults hitems hfaults f hf

theorem typed_of_fieldIssues {path : String} {s : FieldSchema} {v : Value} {issues : List Issue}
    (hv : s.kind.Takes v) (h : Schema.fieldIssues path s v = .ok issues) :
    ∀ i ∈ issues, ¬i.IsOfType := by
  obtain ⟨answer, hanswer, rfl⟩ := map_eq_ok.mp h
  cases answer with
  | ok w => exact List.forall_mem_nil _
  | error r => exact List.forall_mem_singleton.mpr (typed_of_validate hv hanswer)

end Chains

/-! ## The value that each chain gets -/

section Lookups

variable {fields : List Field} {c values : Members}

/-- With distinct keys, the value under the id of a field is the one made for it. -/
theorem get?_own (hkeys : DistinctKeys fields) (h : initialValues fields c = .ok values) {f : Field}
    (hf : f ∈ ownFields fields) : ∃ v, f.initialValue c = .ok v ∧ groupValue values f.id = v := by
  rw [initialValues_eq] at h
  obtain ⟨own, hown, h⟩ := bind_eq_ok.mp h
  obtain ⟨grouped, hgrouped, rfl⟩ := map_eq_ok.mp h
  obtain ⟨y, hy, hentry⟩ := exists_mem_of_mapM hown hf
  obtain ⟨v, hv, rfl⟩ := map_eq_ok.mp hentry
  have hnd : (Ordered.keys (own ++ grouped)).Nodup := by
    have happend : Ordered.keys (own ++ grouped) = Ordered.keys own ++ Ordered.keys grouped :=
      List.map_append
    rw [happend, keys_entries hown, keys_entries hgrouped]
    exact hkeys.keys
  have hget : Ordered.get? (own ++ grouped) f.id = some v :=
    get?_of_mem hnd (List.mem_append_left _ hy)
  exact ⟨v, hv, by rw [groupValue, ofList_of_nodup hnd, hget, Option.getD_some]⟩

/-- In the instance that a group starts with, the value under the key of a member is the one made
for it. -/
theorem get?_instance {g : String} {members : List Field} {v : Value}
    (hnd : (members.map fun m => plainId g m.id).Nodup)
    (h : Initial.groupValue g members c = .ok v) :
    ∃ items, v = .list items ∧ ∀ item ∈ items, ∃ ms, item = .object ms ∧ ∀ f ∈ members,
      ∃ w, f.initialValue (Scope.ofInstance c g 0 []) = .ok w
        ∧ Ordered.get? ms (plainId g f.id) = some w := by
  rw [groupValue_eq] at h
  split at h
  · obtain ⟨ms, hms, rfl⟩ := map_eq_ok.mp h
    refine ⟨_, rfl, List.forall_mem_singleton.mpr ⟨_, rfl, fun f hf => ?_⟩⟩
    obtain ⟨y, hy, hentry⟩ := exists_mem_of_mapM hms hf
    obtain ⟨w, hw, rfl⟩ := map_eq_ok.mp hentry
    rw [ofList_entries hnd hms]
    exact ⟨w, hw, get?_of_mem (keys_entries hms ▸ hnd) hy⟩
  · cases h
    exact ⟨[], rfl, List.forall_mem_nil _⟩

/-- A group starts with instances that its schema takes. -/
theorem takesInstance {validators : Ordered CustomValidator} {owner : Block} {g : String}
    {members : List Field} {s : GroupSchema}
    (hs : compileGroup validators owner g members = .ok s)
    (hdefaults : ∀ f ∈ members, f.LeftToTemplate)
    (hnd : (members.map fun m => plainId g m.id).Nodup) {v : Value}
    (h : Initial.groupValue g members c = .ok v) :
    ∃ items, v = .list items ∧ ∀ item ∈ items, s.TakesInstance item := by
  obtain ⟨items, rfl, hitems⟩ := get?_instance hnd h
  refine ⟨items, rfl, fun item hitem => ?_⟩
  obtain ⟨ms, rfl, hms⟩ := hitems item hitem
  refine ⟨ms, rfl, fun e he => ?_⟩
  obtain ⟨f, hf, chain, hchain, hmember⟩ :=
    field_of_mem_members hs (List.mem_of_getElem? (List.mem_zipIdx_iff_getElem?.mp he))
  obtain ⟨w, hw, hget⟩ := hms f hf
  have hkey : e.1.key = plainId g f.id := by rw [hmember]
  have hkind : e.1.schema.kind = f.kind := by
    rw [hmember]
    exact (field_compile_eq_ok hchain).1
  rw [hkey, read_of_entry hget, hkind]
  exact takes_initialValue (hdefaults f hf) hw

end Lookups

/--
**Initial values are of the types of their fields.**

Let a form be compiled whose declared defaults are null or templates, with distinct keys. In every
context, whatever the templates render to: when the initial values are validated, no issue says that
one of them is of the wrong type.
-/
theorem initialValues_typed {validators : Ordered CustomValidator} {d : Form} {schema : Schema}
    (h : d.compile validators = .ok schema)
    (hdefaults : ∀ f ∈ renderedFields d, f.LeftToTemplate)
    (hkeys : DistinctKeys (renderedFields d)) {c values : Members}
    (hvalues : d.initialValues c = .ok values) {issues : List Issue}
    (hissues : schema.validate values = .ok issues) : ∀ i ∈ issues, ¬i.IsOfType := by
  rw [validate_eq] at hissues
  obtain ⟨own, hown, hrest⟩ := bind_eq_ok.mp hissues
  obtain ⟨grouped, hgrouped, heq⟩ := bind_eq_ok.mp hrest
  cases heq
  intro i hi
  rcases List.mem_append.mp hi with hi | hi
  · obtain ⟨part, hpart, hi⟩ := List.mem_flatten.mp hi
    obtain ⟨e, he, hpart⟩ := mem_mapM hown hpart
    obtain ⟨f, hf, hid, hchain⟩ := field_of_mem_schema h he
    obtain ⟨v, hv, hget⟩ := get?_own hkeys hvalues hf
    rw [← hid, hget] at hpart
    refine typed_of_fieldIssues ?_ hpart i hi
    rw [(field_compile_eq_ok hchain).1]
    exact takes_initialValue (hdefaults f (List.mem_of_mem_filter hf)) hv
  · obtain ⟨part, hpart, hi⟩ := List.mem_flatten.mp hi
    obtain ⟨e, he, hpart⟩ := mem_mapM hgrouped hpart
    obtain ⟨owner, howner⟩ := group_of_mem_schema h he
    have hgroup : (e.1, membersOf (renderedFields d) e.1) ∈ groupedFields (renderedFields d) :=
      grouped_of_mem_schema h he
    have hnd := hkeys.members _ hgroup
    obtain ⟨v, hv, hget⟩ := get?_initialValues hvalues hgroup
    obtain ⟨items, rfl, hitems⟩ := takesInstance howner
      (fun f hf => hdefaults f (mem_membersOf.mp hf).1) hnd hv
    rw [groupValue, hget, Option.getD_some] at hpart
    exact typed_of_issues hitems hpart i hi

/-! ## A form that opens with an entry of the context -/

/-- A number from one on that starts with the entry. -/
def openingField : Field :=
  { textField "amount" with
    kind := .number, default := .scalar (.text entrySource),
    validation := [⟨"min", some (.real (.finite 1)), "Too small"⟩] }

/-- A member of a group that starts with it as well. -/
def openingMember : Field := { memberField "note" [] with default := .scalar (.text entrySource) }

def openingForm : Form :=
  ⟨none, none, "1.0", [fieldBlock "main" [openingField, openingMember]], none⟩

def openingSchema : Schema :=
  ⟨[("amount", amountSchema)],
    [("g", ⟨"g", "main", none, none, [⟨"note", ⟨"note", .text, []⟩⟩]⟩)]⟩

theorem compile_openingForm : openingForm.compile [] = .ok openingSchema := by rfl

/-- What the form starts with, where the entry is the text `abc`, which is no number. -/
def openingValues : Members :=
  [("amount", .int 0), ("g", .list [.object [("note", .str "abc")]])]

theorem initialValues_openingForm :
    openingForm.initialValues [("n", .str "abc")] = .ok openingValues := by
  have htemplate : Template.isTemplate (.str entrySource) = true := by decide
  have hown : openingField.initialValue [("n", .str "abc")] = .ok (.int 0) := by
    show defaultValue (.str entrySource) .number _ = _
    rw [defaultValue, if_pos htemplate, evaluateText_entrySource rfl]
    rfl
  have hmember : openingMember.initialValue (Scope.ofInstance [("n", .str "abc")] "g" 0 []) =
      .ok (.str "abc") := by
    show defaultValue (.str entrySource) .text _ = _
    rw [defaultValue, if_pos htemplate, evaluateText_entrySource rfl]
    rfl
  have hgroup : Initial.groupValue "g" [openingMember] [("n", .str "abc")] =
      .ok (.list [.object [("note", .str "abc")]]) := by
    have hdeclared : ([openingMember].any fun m => m.default.isDeclared) = true := rfl
    have hentries : entries (fun m => plainId "g" m.id)
        (fun m => m.initialValue (Scope.ofInstance [("n", .str "abc")] "g" 0 []))
        [openingMember] = .ok [("note", .str "abc")] :=
      entries_cons_eq_ok.mpr ⟨_, [], hmember, rfl, rfl⟩
    rw [groupValue_eq, if_pos hdeclared, hentries]
    rfl
  have hfields : ownFields (renderedFields openingForm) = [openingField] := by rfl
  have hgroups : groupedFields (renderedFields openingForm) = [("g", [openingMember])] := by rfl
  show initialValues (renderedFields openingForm) _ = _
  refine (initialValues_eq _ _).trans ?_
  rw [hfields, hgroups]
  refine bind_eq_ok.mpr ⟨[("amount", .int 0)],
    entries_cons_eq_ok.mpr ⟨_, [], hown, rfl, rfl⟩, ?_⟩
  exact map_eq_ok.mpr ⟨_, entries_cons_eq_ok.mpr ⟨_, [], hgroup, rfl, rfl⟩, rfl⟩

theorem initialValues_typed_opening :
    openingForm.compile [] = .ok openingSchema
      ∧ (∀ f ∈ renderedFields openingForm, f.LeftToTemplate)
      ∧ DistinctKeys (renderedFields openingForm)
      ∧ openingForm.initialValues [("n", .str "abc")] = .ok openingValues
      ∧ openingSchema.validate openingValues = .ok [⟨"amount", "Too small", "min"⟩]
      ∧ ∀ i ∈ [(⟨"amount", "Too small", "min"⟩ : Issue)], ¬i.IsOfType := by
  have hdefaults : ∀ f ∈ renderedFields openingForm, f.LeftToTemplate := by
    refine List.forall_mem_cons.mpr ⟨?_, List.forall_mem_singleton.mpr ?_⟩
    all_goals
      intro s hs
      cases hs
      decide
  have hkeys : DistinctKeys (renderedFields openingForm) := ⟨by decide, by decide⟩
  have hissues : openingSchema.validate openingValues =
      .ok [⟨"amount", "Too small", "min"⟩] := by rfl
  exact ⟨compile_openingForm, hdefaults, hkeys, initialValues_openingForm, hissues,
    initialValues_typed compile_openingForm hdefaults hkeys initialValues_openingForm hissues⟩

end Formwork.Proofs
