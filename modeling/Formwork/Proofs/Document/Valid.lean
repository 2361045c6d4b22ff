import Formwork.Proofs.Document.Record

/-!
# Valid documents

What reading makes sure of: names that are not empty, laws that hold, blocks with distinct
ids. The types of documents leave these open, since a form may also be put together from
others; so they are conditions of their own here, and whatever is read has them.
-/

namespace Formwork

/-- A rule has a kind. -/
def ValidationRule.Valid (r : ValidationRule) : Prop := r.kind ≠ ""

/-- A field has an id, its rules and its data source are valid, and the laws hold for its button and
for itself. -/
structure Field.Valid (f : Field) : Prop where
  id : f.id ≠ ""
  validation : ∀ r ∈ f.validation, r.Valid
  dataSource : ∀ s, f.dataSource = some s → s.url ≠ ""
  button : ∀ b, f.button = some b → b.law = none
  law : f.law = none

/-- A block has an id, its fields and its calls are valid, and its law holds. -/
structure Block.Valid (b : Block) : Prop where
  id : b.id ≠ ""
  fields : ∀ f ∈ b.fields, f.Valid
  popinLoad : ∀ p, b.popinLoad = some p → p.url ≠ ""
  popinSubmit : ∀ p, b.popinSubmit = some p → p.url ≠ "" ∧ p.method ≠ .get
  law : b.law = none

/-- Blocks are valid and have distinct ids. -/
structure ValidBlocks (bs : List Block) : Prop where
  each : ∀ b ∈ bs, b.Valid
  distinct : (bs.map Block.id).Nodup

/-- A form has valid blocks, and is submitted somewhere if at all. -/
structure Form.Valid (f : Form) : Prop where
  blocks : ValidBlocks f.blocks
  submission : ∀ s, f.submission = some s → s.url ≠ ""

/-- A sub-form has an id, a title and valid blocks. -/
structure SubForm.Valid (s : SubForm) : Prop where
  id : s.id ≠ ""
  title : s.title ≠ ""
  blocks : ValidBlocks s.blocks
  submission : ∀ t, s.submission = some t → t.url ≠ ""

/-- An entry about a field has an id and valid rules. -/
structure FieldRule.Valid (r : FieldRule) : Prop where
  id : r.id ≠ ""
  validation : ∀ rules, r.validation = some rules → ∀ v ∈ rules, v.Valid

/-- A delta has valid entries. -/
structure RuleDelta.Valid (d : RuleDelta) : Prop where
  blocks : ∀ r ∈ d.blocks, r.id ≠ ""
  fields : ∀ r ∈ d.fields, r.Valid

end Formwork

namespace Formwork.Proofs

open Formwork RecordReader

variable {α : Type}

theorem Yields.mono {read : Datum → Reading α} {P Q : α → Prop} (h : Yields read P)
    (himp : ∀ a, P a → Q a) : Yields read Q := fun d a ha => himp a (h d a ha)

/-- Whatever is read from the written forms of some values is one of the values. -/
theorem yields_literal {options : List α} {name : α → String} :
    Yields (Datum.readLiteral options name) (· ∈ options) := by
  intro d a ha
  cases d with
  | text s =>
      rw [Datum.readLiteral] at ha
      split at ha
      · rename_i o ho
        cases ha
        exact List.mem_of_find?_eq_some ho
      · cases ha
  | _ => cases ha

/-- A field on which nothing is asked. -/
theorem Ensures.skip {β : Type} {r : RecordReader (α → β)} {x : RecordReader α} {P : β → Prop}
    (h : Ensures r fun g => ∀ a, P (g a)) : Ensures (r.field x) P :=
  Ensures.field (P := fun _ => True) (fun entries g hg a _ => h entries g hg a)
    fun _ _ _ => trivial

/-- A record that is read has what its fields ensure. -/
theorem Ensures.read {r : RecordReader α} {P : α → Prop} (h : Ensures r P) (model : String)
    (strict : Bool) (law : α → Option DocumentLaw) : Yields (r.read model strict law) P :=
  h.yields.mono fun _ ha => ha.1

/-! ## Fields -/

theorem yields_validationRule : Yields ValidationRule.read ValidationRule.Valid := by
  refine Ensures.read (((ensures_const ?_).field (ensures_required yields_name)).skip.skip) _ _ _
  intro kind hkind _ _
  exact hkind

theorem yields_dataSource : Yields DataSource.read fun s => s.url ≠ "" := by
  refine Ensures.read ?_ _ _ _
  refine ((ensures_const ?_).field (ensures_required yields_name)).skip.skip.skip.skip
  intro url hurl _ _ _ _
  exact hurl

theorem yields_button : Yields Button.read fun b => b.law = none :=
  (Ensures.yields (ensures_any _)).mono fun _ h => h.2

theorem yields_field : Yields Field.read Field.Valid := by
  refine (Ensures.yields (P := fun f => f.law = none → f.Valid) ?_).mono fun f h => h.1 h.2
  refine (((ensures_const ?_).field (ensures_required yields_name)).skip.skip.skip.skip.skip.field
    (ensures_optional yields_dataSource)).field (ensures_withDefault
      (yields_list yields_validationRule) (List.forall_mem_nil _)) |>.skip.skip.field
        (ensures_optional yields_button) |>.skip
  intro id hid _ _ _ _ _ dataSource hsource validation hrules _ _ button hbutton _ hlaw
  exact ⟨hid, hrules, hsource, hbutton, hlaw⟩

/-! ## Blocks -/

theorem yields_popinLoad : Yields PopinLoad.read fun p => p.url ≠ "" := by
  refine Ensures.read ((ensures_const ?_).field (ensures_required yields_name)).skip.skip _ _ _
  intro url hurl _ _
  exact hurl

theorem yields_popinSubmit : Yields PopinSubmit.read fun p => p.url ≠ "" ∧ p.method ≠ .get := by
  refine Ensures.read (((ensures_const ?_).field (ensures_required yields_name)).field
    (ensures_withDefault yields_literal (by simp))).skip.skip _ _ _
  intro url hurl method hmethod _ _
  refine ⟨hurl, ?_⟩
  rintro rfl
  simp at hmethod

theorem yields_block : Yields Block.read Block.Valid := by
  refine (Ensures.yields (P := fun b => b.law = none → b.Valid) ?_).mono fun b h => h.1 h.2
  refine ((ensures_const ?_).field (ensures_required yields_name)).skip.skip.field
    (ensures_withDefault (yields_list yields_field) (List.forall_mem_nil _)) |>.skip.skip.skip.skip.field
      (ensures_optional yields_popinLoad) |>.field (ensures_optional yields_popinSubmit)
        |>.skip.skip.skip.skip.skip
  intro id hid _ _ fields hfields _ _ _ _ popinLoad hload popinSubmit hsubmit _ _ _ _ _ hlaw
  exact ⟨hid, hfields, hload, hsubmit, hlaw⟩

/-- Ids are distinct when none is repeated. -/
theorem repeatedIds_eq_nil_iff {ids : List String} : repeatedIds ids = [] ↔ ids.Nodup := by
  have hlength : (repeatedIds ids).length =
      (ids.filter fun id => 1 < ids.count id).eraseDups.length := List.length_mergeSort ..
  rw [← List.length_eq_zero_iff, hlength, List.length_eq_zero_iff,
    List.eq_nil_iff_forall_not_mem, List.nodup_iff_count]
  constructor
  · intro h id
    refine Nat.le_of_not_lt fun hmany => ?_
    have hid : id ∈ ids := List.count_pos_iff.mp (by omega)
    exact h id (List.mem_eraseDups.mpr (List.mem_filter.mpr ⟨hid, by simpa using hmany⟩))
  · intro h id hid
    have hmany := (List.mem_filter.mp (List.mem_eraseDups.mp hid)).2
    have := h id
    simp only [decide_eq_true_eq] at hmany
    omega

/-- Blocks with distinct ids are read as they are. -/
theorem readBlocks_eq_ok {d : Datum} {bs : List Block}
    (h : Datum.readList Block.read d = .ok bs) (hnd : (bs.map Block.id).Nodup) :
    readBlocks d = .ok bs := by
  rw [readBlocks, h]
  dsimp only
  rw [repeatedIds_eq_nil_iff.mpr hnd]

theorem yields_blocks : Yields readBlocks ValidBlocks := by
  intro d bs hbs
  rw [readBlocks] at hbs
  cases hread : Datum.readList Block.read d with
  | error faults => rw [hread] at hbs; cases hbs
  | ok blocks =>
      rw [hread] at hbs
      dsimp only at hbs
      split at hbs
      · rename_i hids
        cases hbs
        exact ⟨yields_list yields_block d _ hread, repeatedIds_eq_nil_iff.mp hids⟩
      · cases hbs

theorem validBlocks_nil : ValidBlocks [] := ⟨List.forall_mem_nil _, List.nodup_nil⟩

/-! ## Documents -/

theorem yields_submission : Yields Submission.read fun s => s.url ≠ "" := by
  refine Ensures.read ((ensures_const ?_).field (ensures_required yields_name)).skip.skip.skip.skip
    _ _ _
  intro url hurl _ _ _ _
  exact hurl

/-- A form that is read is valid. -/
theorem yields_form : Yields Form.read Form.Valid := by
  refine Ensures.read ?_ _ _ _
  refine (ensures_const ?_).skip.skip.skip.field
    (ensures_withDefault yields_blocks validBlocks_nil) |>.field
      (ensures_optional yields_submission)
  intro _ _ _ blocks hblocks submission hsubmission
  exact ⟨hblocks, hsubmission⟩

/-- A sub-form that is read is valid. -/
theorem yields_subForm : Yields SubForm.read SubForm.Valid := by
  refine Ensures.read ?_ _ _ _
  refine ((ensures_const ?_).field (ensures_required yields_name)).field
    (ensures_required yields_name) |>.skip.field
      (ensures_withDefault yields_blocks validBlocks_nil) |>.field
        (ensures_optional yields_submission)
  intro id hid title htitle _ blocks hblocks submission hsubmission
  exact ⟨hid, htitle, hblocks, hsubmission⟩

/-! ## Deltas -/

theorem yields_section {read : Datum → Reading α} {P : α → Prop} (h : Yields read P) :
    Yields (RuleDelta.readSection read) fun out => ∀ a ∈ out, P a := by
  intro d out hout
  unfold RuleDelta.readSection at hout
  split at hout
  · cases hout
    exact List.forall_mem_nil _
  · exact yields_list h _ _ hout

theorem yields_blockRule : Yields BlockRule.read fun r => r.id ≠ "" := by
  refine Ensures.read ((ensures_const ?_).field (ensures_required yields_name)).skip _ _ _
  intro id hid _
  exact hid

theorem yields_fieldRule : Yields FieldRule.read FieldRule.Valid := by
  refine Ensures.read ?_ _ _ _
  refine ((ensures_const ?_).field (ensures_required yields_name)).field
    (ensures_optional (yields_list yields_validationRule)) |>.skip
  intro id hid validation hrules _
  exact ⟨hid, hrules⟩

/-- A delta that is read is valid. -/
theorem yields_delta : Yields RuleDelta.read RuleDelta.Valid := by
  refine Ensures.read ?_ _ _ _
  refine ((ensures_const ?_).field
    (ensures_withDefault (yields_section yields_blockRule) (List.forall_mem_nil _))).field
      (ensures_withDefault (yields_section yields_fieldRule) (List.forall_mem_nil _))
  intro blocks hblocks fields hfields
  exact ⟨hblocks, hfields⟩

end Formwork.Proofs
