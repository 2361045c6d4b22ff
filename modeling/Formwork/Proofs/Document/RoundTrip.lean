import Formwork.Proofs.Document.Valid
import Formwork.Proofs.Rules.Status

/-!
# Documents written and read back

The wire form leaves out what is null. So two things do not come back: a status key that is
set to null, which then is not set, and a default that is declared as null, which then is
not declared. What is left of a part without them is what the wire form carries
(`Field.carried`, and so on), and a valid part is read back as that.

Each part is one chain of fields, in the order in which they are written.
-/

namespace Formwork

/-! ## What the wire form carries -/

/-- A declared null is not carried. -/
def Default.carried : Default → Default
  | .null => .undeclared
  | d => d

def MenuItem.carried (i : MenuItem) : MenuItem :=
  { i with status := i.status.map Status.onlyTemplates }

def Button.carried (b : Button) : Button :=
  { b with items := b.items.map fun items => items.map MenuItem.carried }

def Field.carried (f : Field) : Field :=
  { f with
    default := f.default.carried
    status := f.status.map Status.onlyTemplates
    button := f.button.map Button.carried }

def Block.carried (b : Block) : Block :=
  { b with fields := b.fields.map Field.carried, status := b.status.map Status.onlyTemplates }

def Form.carried (f : Form) : Form := { f with blocks := f.blocks.map Block.carried }

def BlockRule.carried (r : BlockRule) : BlockRule :=
  { r with status := r.status.map Status.onlyTemplates }

def FieldRule.carried (r : FieldRule) : FieldRule :=
  { r with status := r.status.map Status.onlyTemplates }

def RuleDelta.carried (d : RuleDelta) : RuleDelta :=
  ⟨d.blocks.map BlockRule.carried, d.fields.map FieldRule.carried⟩

end Formwork

namespace Formwork.Proofs

open Formwork RecordReader

/-! ## Scalars -/

theorem readsBack_text (s : String) : ReadsBack Datum.readText (.str s) s := ⟨nofun, rfl⟩

theorem readsBack_name {s : String} (h : s ≠ "") : ReadsBack Datum.readName (.str s) s := by
  refine ⟨nofun, ?_⟩
  show (if s.isEmpty then _ else _) = _
  rw [if_neg (by simpa using h)]

theorem readsBack_bool (b : Bool) : ReadsBack Datum.readBool (.bool b) b := ⟨nofun, rfl⟩

theorem readsBack_count (n : Nat) : ReadsBack Datum.readCount (.int n) n := by
  refine ⟨nofun, ?_⟩
  show (if (n : Int) < 0 then Reading.fault .belowZero else .ok (n : Int).toNat) = .ok n
  rw [if_neg (by omega), Int.toNat_natCast]

theorem readsBack_scalar (s : Scalar) : ReadsBack Scalar.read s.toValue s := by
  cases s <;> exact ⟨nofun, rfl⟩

theorem readsBack_parameter (p : Parameter) : ReadsBack Parameter.read p.toValue p := by
  cases p <;> exact ⟨nofun, rfl⟩

/-- An option is read back by its name when no option before it has the name. -/
theorem readsBack_literal {α : Type} {options : List α} {name : α → String} {a : α}
    (h : options.find? (fun o => name o == name a) = some a) :
    ReadsBack (Datum.readLiteral options name) (.str (name a)) a := by
  refine ⟨nofun, ?_⟩
  show Datum.readLiteral options name (.text (name a)) = _
  rw [Datum.readLiteral, h]

theorem readsBack_kind (k : FieldKind) : ReadsBack FieldKind.read (.str k.name) k := by
  refine ⟨nofun, ?_⟩
  have h : FieldKind.all.find? (fun o => o.name == k.name) = some k := FieldKind.ofName?_name k
  show Datum.readEnum FieldKind.all FieldKind.name (.text k.name) = _
  rw [Datum.readEnum, h]

/-- A text that may be missing. -/
theorem fits_text {names : List String} {key : String} (hkey : key ∈ names) (s : Option String) :
    Fits (RecordReader.optional names Datum.readText) [(key, optionalText s)] [(key, names)] s :=
  fits_optional_same hkey fun t _ => readsBack_text t

theorem mem_spellings (name : String) : name ∈ spellings name := by
  unfold spellings
  dsimp only
  split <;> exact List.mem_cons_self ..

/-! ## Parts of fields -/

theorem readsBack_scheme (s : AuthScheme) : ReadsBack AuthScheme.read (.str s.name) s :=
  readsBack_literal (by cases s <;> rfl)

theorem readsBack_auth (a : Auth) : ReadsBack Auth.read a.write a := by
  have h := fits_const Auth.mk
    |>.field (fits_required (List.mem_singleton_self "type") (readsBack_scheme a.scheme))
    |>.field (fits_text (List.mem_singleton_self "token") a.token)
    |>.field (fits_text (mem_spellings "headerName") a.headerName)
    |>.field (fits_text (List.mem_singleton_self "username") a.username)
    |>.field (fits_text (List.mem_singleton_self "password") a.password)
  exact h.readsBack (by decide) _ _ rfl

/-- How a call authenticates, if it does. -/
theorem fits_auth (auth : Option Auth) :
    Fits (RecordReader.optional ["auth"] Auth.read) [("auth", auth.map Auth.write)]
      [("auth", ["auth"])] auth :=
  fits_optional_same (List.mem_singleton_self "auth") fun a _ => readsBack_auth a

theorem readsBack_validationRule {r : ValidationRule} (hr : r.Valid) :
    ReadsBack ValidationRule.read r.write r := by
  have h := fits_const ValidationRule.mk
    |>.field (fits_required (show "type" ∈ ["kind", "type"] by simp) (readsBack_name hr))
    |>.field (fits_optional_same (show "value" ∈ ["parameter", "value"] by simp)
      fun p (_ : r.parameter = some p) => readsBack_parameter p)
    |>.field (fits_withDefault "" (List.mem_singleton_self "message") (readsBack_text r.message))
  exact h.readsBack (by decide) _ _ rfl

/-- Rules are read back when each is valid. -/
theorem readsBack_rules {rules : List ValidationRule} (h : ∀ r ∈ rules, r.Valid) :
    ReadsBack (Datum.readList ValidationRule.read) (.list (rules.map ValidationRule.write)) rules := by
  have := readsBack_list (f := id) fun r hr => readsBack_validationRule (h r hr)
  rwa [List.map_id] at this

theorem readsBack_option (o : ListedOption) : ReadsBack ListedOption.read o.write o := by
  have h := fits_const ListedOption.mk
    |>.field (fits_required (List.mem_singleton_self "label") (readsBack_text o.label))
    |>.field (fits_required (List.mem_singleton_self "value") (readsBack_scalar o.value))
  exact h.readsBack (by decide) _ _ rfl

theorem readsBack_options (options : List ListedOption) :
    ReadsBack (Datum.readList ListedOption.read) (.list (options.map ListedOption.write))
      options := by
  have := readsBack_list (f := id) fun o (_ : o ∈ options) => readsBack_option o
  rwa [List.map_id] at this

theorem readsBack_dataSource {s : DataSource} (hs : s.url ≠ "") :
    ReadsBack DataSource.read s.write s := by
  have h := fits_const DataSource.mk
    |>.field (fits_required (List.mem_singleton_self "url") (readsBack_name hs))
    |>.field (fits_required (mem_spellings "itemsTemplate") (readsBack_text s.itemsTemplate))
    |>.field (fits_text (mem_spellings "iteratorTemplate") s.iteratorTemplate)
    |>.field (fits_text (mem_spellings "dataSourceId") s.dataSourceId)
    |>.field (fits_auth s.auth)
  exact h.readsBack (by decide) _ _ rfl

/-- A template comes back, and nothing else that a status says under a key. -/
theorem fits_entry (key : String) (e : StatusEntry) :
    Fits (withDefault [key] StatusEntry.read .unset) [(key, optionalText e.text?)] [(key, [key])]
      (.ofText? e.text?) := by
  cases e.text? with
  | none => exact fits_spelled_none (List.mem_singleton_self key) rfl
  | some t => exact fits_spelled_some (List.mem_singleton_self key) rfl

theorem readsBack_status (s : Status) : ReadsBack Status.read s.write s.onlyTemplates := by
  have h := fits_const Status.mk
    |>.field (fits_entry "hidden" s.hidden)
    |>.field (fits_entry "disabled" s.disabled)
    |>.field (fits_entry "readonly" s.readonly)
  exact h.readsBack (by decide) _ _ rfl

/-- The status of a part, if it has one. -/
theorem fits_status (status : Option Status) :
    Fits (RecordReader.optional ["status"] Status.read) [("status", status.map Status.write)]
      [("status", ["status"])] (status.map Status.onlyTemplates) :=
  fits_optional (List.mem_singleton_self "status") fun s _ => readsBack_status s

theorem readsBack_menuItem (i : MenuItem) : ReadsBack MenuItem.read i.write i.carried := by
  have h := fits_const MenuItem.mk
    |>.field (fits_required (List.mem_singleton_self "label") (readsBack_text i.label))
    |>.field (fits_required (mem_spellings "popinBlockId") (readsBack_text i.popinBlockId))
    |>.field (fits_status i.status)
  exact h.readsBack (by decide) _ _ rfl

theorem readsBack_variant (v : ButtonVariant) :
    ReadsBack ButtonVariant.read (.str v.name) v :=
  readsBack_literal (by cases v <;> rfl)

/-- The law of a button does not look at statuses. -/
theorem law_carried_button (b : Button) : b.carried.law = b.law := by
  unfold Button.law Button.carried
  cases b.items with
  | none => rfl
  | some items => cases items <;> rfl

theorem readsBack_button {b : Button} (hb : b.law = none) :
    ReadsBack Button.read b.write b.carried := by
  have h := fits_const Button.mk
    |>.field (fits_withDefault .single (List.mem_singleton_self "variant")
      (readsBack_variant b.variant))
    |>.field (fits_text (mem_spellings "popinBlockId") b.popinBlockId)
    |>.field (fits_optional (List.mem_singleton_self "items")
      fun items (_ : b.items = some items) =>
        readsBack_list fun i (_ : i ∈ items) => readsBack_menuItem i)
  exact h.readsBack (by decide) _ _ ((law_carried_button b).trans hb)

/-! ## Fields and blocks -/

/-- A scalar default comes back, a null is not carried. -/
theorem fits_default {names : List String} {key : String} (hkey : key ∈ names) (d : Default) :
    Fits (withDefault names Default.read .undeclared) [(key, d.write?)] [(key, names)]
      d.carried := by
  cases d with
  | undeclared => exact fits_spelled_none hkey rfl
  | null => exact fits_spelled_none hkey rfl
  | scalar s => cases s <;> exact fits_spelled_some hkey rfl

theorem readsBack_field {f : Field} (hf : f.Valid) : ReadsBack Field.read f.write f.carried := by
  have h := fits_const Field.mk
    |>.field (fits_required (List.mem_singleton_self "id") (readsBack_name hf.id))
    |>.field (fits_required (List.mem_singleton_self "type") (readsBack_kind f.kind))
    |>.field (fits_withDefault "" (List.mem_singleton_self "label") (readsBack_text f.label))
    |>.field (fits_text (List.mem_singleton_self "description") f.description)
    |>.field (fits_default (mem_spellings "defaultValue") f.default)
    |>.field (fits_optional_same (List.mem_singleton_self "items")
      fun options (_ : f.items = some options) => readsBack_options options)
    |>.field (fits_optional_same (mem_spellings "dataSource")
      fun s hs => readsBack_dataSource (hf.dataSource s hs))
    |>.field (fits_withDefault [] (List.mem_singleton_self "validation")
      (readsBack_rules hf.validation))
    |>.field (fits_withDefault false (mem_spellings "isDiscriminant")
      (readsBack_bool f.isDiscriminant))
    |>.field (fits_status f.status)
    |>.field (fits_optional (List.mem_singleton_self "button")
      fun b hb => readsBack_button (hf.button b hb))
    |>.field (fits_text (mem_spellings "repeatableGroupId") f.repeatableGroupId)
  exact h.readsBack (by decide) _ _ hf.law

/-- Fields are read back when each is valid. -/
theorem readsBack_fields {fields : List Field} (h : ∀ f ∈ fields, f.Valid) :
    ReadsBack (Datum.readList Field.read) (.list (fields.map Field.write))
      (fields.map Field.carried) :=
  readsBack_list fun f hf => readsBack_field (h f hf)

theorem readsBack_popinLoad {p : PopinLoad} (hp : p.url ≠ "") :
    ReadsBack PopinLoad.read p.write p := by
  have h := fits_const PopinLoad.mk
    |>.field (fits_required (List.mem_singleton_self "url") (readsBack_name hp))
    |>.field (fits_text (mem_spellings "dataSourceId") p.dataSourceId)
    |>.field (fits_auth p.auth)
  exact h.readsBack (by decide) _ _ rfl

/-- A popin is not submitted by asking for something. -/
theorem readsBack_popinMethod {m : Method} (hm : m ≠ .get) :
    ReadsBack (Datum.readLiteral [.post, .put, .patch] Method.name) (.str m.name) m := by
  refine readsBack_literal ?_
  cases m with
  | get => exact absurd rfl hm
  | post => rfl
  | put => rfl
  | patch => rfl

theorem readsBack_popinSubmit {p : PopinSubmit} (hp : p.url ≠ "" ∧ p.method ≠ .get) :
    ReadsBack PopinSubmit.read p.write p := by
  have h := fits_const PopinSubmit.mk
    |>.field (fits_required (List.mem_singleton_self "url") (readsBack_name hp.1))
    |>.field (fits_withDefault .post (List.mem_singleton_self "method")
      (readsBack_popinMethod hp.2))
    |>.field (fits_text (mem_spellings "payloadTemplate") p.payloadTemplate)
    |>.field (fits_auth p.auth)
  exact h.readsBack (by decide) _ _ rfl

/-- A count that may be missing. -/
theorem fits_count {names : List String} {key : String} (hkey : key ∈ names) (n : Option Nat) :
    Fits (RecordReader.optional names Datum.readCount) [(key, optionalCount n)] [(key, names)] n := by
  have hwrite : optionalCount n = n.map fun n : Nat => .int n := by cases n <;> rfl
  rw [hwrite]
  exact fits_optional_same hkey fun n _ => readsBack_count n

theorem readsBack_block {b : Block} (hb : b.Valid) : ReadsBack Block.read b.write b.carried := by
  have h := fits_const Block.mk
    |>.field (fits_required (List.mem_singleton_self "id") (readsBack_name hb.id))
    |>.field (fits_withDefault "" (List.mem_singleton_self "title") (readsBack_text b.title))
    |>.field (fits_text (List.mem_singleton_self "description") b.description)
    |>.field (fits_withDefault [] (List.mem_singleton_self "fields") (readsBack_fields hb.fields))
    |>.field (fits_status b.status)
    |>.field (fits_text (mem_spellings "subFormRef") b.subFormRef)
    |>.field (fits_text (mem_spellings "subFormInstanceId") b.subFormInstanceId)
    |>.field (fits_withDefault false (List.mem_singleton_self "popin") (readsBack_bool b.popin))
    |>.field (fits_optional_same (mem_spellings "popinLoad")
      fun p hp => readsBack_popinLoad (hb.popinLoad p hp))
    |>.field (fits_optional_same (mem_spellings "popinSubmit")
      fun p hp => readsBack_popinSubmit (hb.popinSubmit p hp))
    |>.field (fits_withDefault false (List.mem_singleton_self "repeatable")
      (readsBack_bool b.repeatable))
    |>.field (fits_count (mem_spellings "minInstances") b.minInstances)
    |>.field (fits_count (mem_spellings "maxInstances") b.maxInstances)
    |>.field (fits_text (mem_spellings "repeatableBlockRef") b.repeatableBlockRef)
    |>.field (fits_withDefault false (mem_spellings "templateOnly") (readsBack_bool b.templateOnly))
  exact h.readsBack (by decide) _ _ hb.law

/-- Blocks keep their ids, so these are as distinct as before. -/
theorem readsBack_blocks {bs : List Block} (h : ValidBlocks bs) :
    ReadsBack readBlocks (.list (bs.map Block.write)) (bs.map Block.carried) := by
  obtain ⟨hnull, hread⟩ := readsBack_list fun b hb => readsBack_block (h.each b hb)
  have hids : (bs.map Block.carried).map Block.id = bs.map Block.id := List.map_map
  exact ⟨hnull, readBlocks_eq_ok hread (hids ▸ h.distinct)⟩

/-! ## Documents -/

theorem readsBack_method (m : Method) :
    ReadsBack (Datum.readLiteral [.get, .post, .put, .patch] Method.name) (.str m.name) m :=
  readsBack_literal (by cases m <;> rfl)

theorem readsBack_texts (m : Ordered String) :
    ReadsBack Datum.readTexts (textsValue m) m := by
  refine ⟨by rw [textsValue, ofValue_object]; nofun, ?_⟩
  rw [textsValue, ofValue_object, ofMembers_eq_map, Datum.readTexts, List.map_map, List.map_map,
    all_map_eq_ok (f := id), List.map_id]
  intro entry _
  exact both_eq_ok.mpr ⟨rfl, rfl⟩

theorem readsBack_submission {s : Submission} (hs : s.url ≠ "") :
    ReadsBack Submission.read s.write s := by
  have h := fits_const Submission.mk
    |>.field (fits_required (List.mem_singleton_self "url") (readsBack_name hs))
    |>.field (fits_withDefault .post (List.mem_singleton_self "method") (readsBack_method s.method))
    |>.field (fits_text (mem_spellings "payloadTemplate") s.payloadTemplate)
    |>.field (fits_optional_same (List.mem_singleton_self "headers")
      fun m (_ : s.headers = some m) => readsBack_texts m)
    |>.field (fits_auth s.auth)
  exact h.readsBack (by decide) _ _ rfl

/-- **A valid form is read back as what the wire form carries of it.** -/
theorem readsBack_form {f : Form} (hf : f.Valid) : ReadsBack Form.read f.write f.carried := by
  have h := fits_const Form.mk
    |>.field (fits_text (List.mem_singleton_self "id") f.id)
    |>.field (fits_text (List.mem_singleton_self "title") f.title)
    |>.field (fits_withDefault "1.0" (List.mem_singleton_self "version") (readsBack_text f.version))
    |>.field (fits_withDefault [] (List.mem_singleton_self "blocks") (readsBack_blocks hf.blocks))
    |>.field (fits_optional_same (List.mem_singleton_self "submission")
      fun s hs => readsBack_submission (hf.submission s hs))
  exact h.readsBack (by decide) _ _ rfl

/-! ## Deltas -/

theorem readsBack_blockRule {r : BlockRule} (hr : r.id ≠ "") :
    ReadsBack BlockRule.read r.write r.carried := by
  have h := fits_const BlockRule.mk
    |>.field (fits_required (List.mem_singleton_self "id") (readsBack_name hr))
    |>.field (fits_status r.status)
  exact h.readsBack (by decide) _ _ rfl

theorem readsBack_fieldRule {r : FieldRule} (hr : r.Valid) :
    ReadsBack FieldRule.read r.write r.carried := by
  have h := fits_const FieldRule.mk
    |>.field (fits_required (List.mem_singleton_self "id") (readsBack_name hr.id))
    |>.field (fits_optional_same (List.mem_singleton_self "validation")
      fun rules hrules => readsBack_rules (hr.validation rules hrules))
    |>.field (fits_status r.status)
  exact h.readsBack (by decide) _ _ rfl

/-- A section that is there is read as a list. -/
theorem readsBack_section {α γ : Type} {read : Datum → Reading α} {write : γ → Value} {f : γ → α}
    {xs : List γ} (h : ∀ x ∈ xs, ReadsBack read (write x) (f x)) :
    ReadsBack (RuleDelta.readSection read) (.list (xs.map write)) (xs.map f) := by
  obtain ⟨hnull, hread⟩ := readsBack_list h
  refine ⟨hnull, ?_⟩
  unfold RuleDelta.readSection
  split
  · rename_i heq
    exact absurd heq hnull
  · exact hread

/-- **A valid delta is read back as what the wire form carries of it.** -/
theorem readsBack_delta {d : RuleDelta} (hd : d.Valid) :
    ReadsBack RuleDelta.read d.write d.carried := by
  have h := fits_const RuleDelta.mk
    |>.field (fits_withDefault [] (List.mem_singleton_self "blocks")
      (readsBack_section fun r hr => readsBack_blockRule (hd.blocks r hr)))
    |>.field (fits_withDefault [] (List.mem_singleton_self "fields")
      (readsBack_section fun r hr => readsBack_fieldRule (hd.fields r hr)))
  exact h.readsBack (by decide) _ _ rfl

end Formwork.Proofs
