import Formwork.Proofs.Rules.Overlay
import Formwork.Proofs.Values.SentBack

/-!
# A form on its way

A form is read from a document, resolved, and overlaid with one delta after another. No
step goes through the checks of reading again, and none needs to: each keeps a valid form
valid, so that whatever form is met on the way can be written, read back and written again.

What is read back says the same as the form itself. It differs at most where the form says
null, which the wire form leaves out: a default that is declared as null, a status key that
is set to null. So what is read back is the very form exactly when it says null nowhere.
-/

namespace Formwork

/-- Forms that say the same, but for where they say null and where they say nothing. -/
def Form.SaysSame (f g : Form) : Prop := f.carried = g.carried

/-- No key of the status is set to null. -/
def Status.WithoutNulls (s : Status) : Prop :=
  s.hidden ≠ .cleared ∧ s.disabled ≠ .cleared ∧ s.readonly ≠ .cleared

/-- A status that may be missing. -/
def Status.WithoutNullsIn (status : Option Status) : Prop :=
  ∀ s, status = some s → s.WithoutNulls

/-- Neither the default of the field is declared as null, nor a key of a status in it set to null. -/
structure Field.WithoutNulls (f : Field) : Prop where
  default : f.default ≠ .null
  status : Status.WithoutNullsIn f.status
  button : ∀ b, f.button = some b → ∀ items, b.items = some items →
    ∀ i ∈ items, Status.WithoutNullsIn i.status

/-- Null is said nowhere in the form. -/
def Form.WithoutNulls (f : Form) : Prop :=
  ∀ b ∈ f.blocks, (∀ x ∈ b.fields, x.WithoutNulls) ∧ Status.WithoutNullsIn b.status

/-- A form is met on the way: it is the one that was read, or the resolved one under the first
deltas, however many. -/
def Form.OnTheWay (x d r : Form) (deltas : List RuleDelta) : Prop :=
  x = d ∨ ∃ n, x = (deltas.take n).foldl Form.merge r

end Formwork

namespace Formwork.Proofs

open Formwork

/-! ## What is written of what is carried -/

/-- Parts that are written alike are written alike in an option. -/
theorem map_map_write {α : Type} {f : α → α} {write : α → Value}
    (h : ∀ a, write (f a) = write a) (o : Option α) : (o.map f).map write = o.map write := by
  cases o with
  | none => rfl
  | some a => exact congrArg some (h a)

/-- And in a list. -/
theorem list_map_map_write {α : Type} {f : α → α} {write : α → Value}
    (h : ∀ a, write (f a) = write a) (xs : List α) : (xs.map f).map write = xs.map write := by
  rw [List.map_map]
  exact List.map_congr_left fun a _ => h a

theorem write_onlyTemplates (s : Status) : s.onlyTemplates.write = s.write := by
  unfold Status.write Status.onlyTemplates
  simp only [text?_ofText?]

theorem write_carried_menuItem (i : MenuItem) : i.carried.write = i.write := by
  unfold MenuItem.write MenuItem.carried
  rw [map_map_write write_onlyTemplates]

theorem write_carried_button (b : Button) : b.carried.write = b.write := by
  have hlist (items : List MenuItem) : Value.list ((items.map MenuItem.carried).map MenuItem.write) =
      .list (items.map MenuItem.write) := by
    rw [list_map_map_write write_carried_menuItem]
  unfold Button.write Button.carried
  rw [map_map_write hlist]

theorem write?_carried (d : Default) : d.carried.write? = d.write? := by cases d <;> rfl

theorem write_carried_field (f : Field) : f.carried.write = f.write := by
  unfold Field.write Field.carried
  rw [write?_carried, map_map_write write_onlyTemplates, map_map_write write_carried_button]

theorem write_carried_block (b : Block) : b.carried.write = b.write := by
  unfold Block.write Block.carried
  rw [list_map_map_write write_carried_field, map_map_write write_onlyTemplates]

/-- **What is carried of a form is written as the form itself.** -/
theorem write_carried (f : Form) : f.carried.write = f.write := by
  unfold Form.write Form.carried
  rw [list_map_map_write write_carried_block]

/-- A valid form is the same to the wire form twice as once. -/
theorem carried_carried {f : Form} (hf : f.Valid) : f.carried.carried = f.carried := by
  have hread := (readsBack_form hf).reads
  have hvalid : f.carried.Valid := yields_form _ _ hread
  have hagain := (readsBack_form hvalid).reads
  rw [write_carried, hread] at hagain
  exact (Except.ok.inj hagain).symm

/-! ## Where nothing is null -/

theorem map_eq_self_iff {α : Type} {f : α → α} {o : Option α} :
    o.map f = o ↔ ∀ a, o = some a → f a = a := by
  cases o <;> simp

theorem list_map_eq_self_iff {α : Type} {f : α → α} {xs : List α} :
    xs.map f = xs ↔ ∀ a ∈ xs, f a = a := by
  have h : xs.map f = xs.map id ↔ ∀ a ∈ xs, f a = id a := List.map_inj_left
  rwa [List.map_id] at h

theorem ofText?_text?_eq_self_iff (e : StatusEntry) :
    StatusEntry.ofText? e.text? = e ↔ e ≠ .cleared := by
  cases e <;> simp [StatusEntry.text?, StatusEntry.ofText?]

theorem onlyTemplates_eq_self_iff (s : Status) : s.onlyTemplates = s ↔ s.WithoutNulls := by
  obtain ⟨hidden, disabled, readonly⟩ := s
  simp only [Status.onlyTemplates, Status.mk.injEq, Status.WithoutNulls, ofText?_text?_eq_self_iff]

theorem status_carried_eq_self_iff (status : Option Status) :
    status.map Status.onlyTemplates = status ↔ Status.WithoutNullsIn status := by
  rw [map_eq_self_iff]
  exact forall₂_congr fun s _ => onlyTemplates_eq_self_iff s

theorem menuItem_carried_eq_self_iff (i : MenuItem) :
    i.carried = i ↔ Status.WithoutNullsIn i.status := by
  rw [← status_carried_eq_self_iff]
  cases i
  simp only [MenuItem.carried, MenuItem.mk.injEq, true_and]

theorem button_carried_eq_self_iff (b : Button) :
    b.carried = b ↔ ∀ items, b.items = some items →
      ∀ i ∈ items, Status.WithoutNullsIn i.status := by
  have hitems : b.carried = b ↔
      (b.items.map fun items => items.map MenuItem.carried) = b.items := by
    cases b
    simp only [Button.carried, Button.mk.injEq, true_and]
  rw [hitems, map_eq_self_iff]
  refine forall₂_congr fun items _ => ?_
  rw [list_map_eq_self_iff]
  exact forall₂_congr fun i _ => menuItem_carried_eq_self_iff i

theorem default_carried_eq_self_iff (d : Default) : d.carried = d ↔ d ≠ .null := by
  cases d <;> simp [Default.carried]

theorem field_carried_eq_self_iff (f : Field) : f.carried = f ↔ f.WithoutNulls := by
  have hparts : f.carried = f ↔ f.default.carried = f.default
      ∧ f.status.map Status.onlyTemplates = f.status ∧ f.button.map Button.carried = f.button := by
    cases f
    simp only [Field.carried, Field.mk.injEq, true_and, and_true]
  rw [hparts, default_carried_eq_self_iff, status_carried_eq_self_iff, map_eq_self_iff]
  constructor
  · rintro ⟨hdefault, hstatus, hbutton⟩
    exact ⟨hdefault, hstatus, fun b hb => (button_carried_eq_self_iff b).mp (hbutton b hb)⟩
  · rintro ⟨hdefault, hstatus, hbutton⟩
    exact ⟨hdefault, hstatus, fun b hb => (button_carried_eq_self_iff b).mpr (hbutton b hb)⟩

theorem block_carried_eq_self_iff (b : Block) :
    b.carried = b ↔ (∀ x ∈ b.fields, x.WithoutNulls) ∧ Status.WithoutNullsIn b.status := by
  have hparts : b.carried = b ↔ b.fields.map Field.carried = b.fields
      ∧ b.status.map Status.onlyTemplates = b.status := by
    cases b
    simp only [Block.carried, Block.mk.injEq, true_and, and_true]
  rw [hparts, list_map_eq_self_iff, status_carried_eq_self_iff]
  exact and_congr_left fun _ => forall₂_congr fun x _ => field_carried_eq_self_iff x

/-- **The wire form carries a form as it is exactly when null is said nowhere in it.** -/
theorem carried_eq_self_iff (f : Form) : f.carried = f ↔ f.WithoutNulls := by
  have hparts : f.carried = f ↔ f.blocks.map Block.carried = f.blocks := by
    cases f
    simp only [Form.carried, Form.mk.injEq, true_and, and_true]
  rw [hparts, list_map_eq_self_iff]
  exact forall₂_congr fun b _ => block_carried_eq_self_iff b

/-! ## Deltas keep forms valid -/

theorem field_valid_merge {f : Field} {d : RuleDelta} (hf : f.Valid) (hd : d.Valid) :
    (f.merge d).Valid := by
  cases h : d.field? f.id with
  | none => rwa [field_merge_of_none h]
  | some r =>
      have hr : r ∈ d.fields := List.mem_reverse.mp (List.mem_of_find?_eq_some h)
      rw [field_merge_of_some h]
      refine ⟨hf.id, ?_, hf.dataSource, hf.button,
        (field_law_eq_none_iff _).mpr ((field_law_eq_none_iff f).mp hf.law)⟩
      show ∀ v ∈ r.validation.getD f.validation, v.Valid
      cases hrules : r.validation with
      | none => exact hf.validation
      | some rules => exact (hd.fields r hr).validation rules hrules

theorem block_valid_merge {b : Block} {d : RuleDelta} (hb : b.Valid) (hd : d.Valid) :
    (b.merge d).Valid :=
  ⟨hb.id, List.forall_mem_map.mpr fun f hf => field_valid_merge (hb.fields f hf) hd, hb.popinLoad,
    hb.popinSubmit, (block_law_eq_none_iff _).mpr ((block_law_eq_none_iff b).mp hb.law)⟩

/-- A valid delta keeps a form valid: it replaces rules by valid rules, and no law is about what
else it changes. -/
theorem merge_valid {f : Form} {d : RuleDelta} (hf : f.Valid) (hd : d.Valid) :
    (f.merge d).Valid := by
  have hids : (f.merge d).blocks.map Block.id = f.blocks.map Block.id := List.map_map
  exact ⟨⟨List.forall_mem_map.mpr fun b hb => block_valid_merge (hf.blocks.each b hb) hd,
    hids ▸ hf.blocks.distinct⟩, hf.submission⟩

/-- And so do deltas that are merged in turn. -/
theorem foldl_merge_valid {f : Form} {deltas : List RuleDelta} (hf : f.Valid)
    (h : ∀ δ ∈ deltas, δ.Valid) : (deltas.foldl Form.merge f).Valid := by
  induction deltas generalizing f with
  | nil => exact hf
  | cons δ deltas ih =>
      obtain ⟨hδ, hrest⟩ := List.forall_mem_cons.mp h
      exact ih (merge_valid hf hδ) hrest

/-- Every form that is met on the way is valid. -/
theorem valid_onTheWay {σ : Type} {p : Provider σ} (hp : GivesRead p) {limit : Int} {d r x : Form}
    {s t : σ} {deltas : List RuleDelta} (hd : d.Valid)
    (hr : d.resolveFrom p limit s = (.ok r, t)) (hdeltas : ∀ δ ∈ deltas, δ.Valid)
    (hx : x.OnTheWay d r deltas) : x.Valid := by
  rcases hx with rfl | ⟨n, rfl⟩
  · exact hd
  · exact foldl_merge_valid (resolveFrom_valid hp hd hr)
      fun δ hδ => hdeltas δ (List.mem_of_mem_take hδ)

/--
**Whatever form is met on the way can be written and read back.**

Let a form that was read be resolved with sub-forms that were read, and overlaid with valid deltas
in turn. Each of the forms on the way is read back from its wire form; what is read back is written
as it was, says the same, and is the very form exactly when that says null nowhere. And what reading
checks holds of each: the ids of blocks are distinct, a least number of instances does not exceed
the greatest, and no field has both options that are listed and options that are fetched.
-/
theorem onTheWay_readsBack {doc : Datum} {d r : Form} {σ : Type} {p : Provider σ} {limit : Int}
    {s t : σ} (hread : Form.read doc = .ok d) (hp : GivesRead p)
    (hr : d.resolveFrom p limit s = (.ok r, t)) {deltas : List RuleDelta}
    (hdeltas : ∀ δ ∈ deltas, δ.Valid) {x : Form} (hx : x.OnTheWay d r deltas) :
    (∃ y, Form.read (Datum.ofValue x.write) = .ok y ∧ y.write = x.write ∧ y.SaysSame x)
      ∧ (Form.read (Datum.ofValue x.write) = .ok x ↔ x.WithoutNulls)
      ∧ (x.blocks.map Block.id).Nodup
      ∧ ∀ b ∈ x.blocks,
          (∀ least most, b.minInstances = some least → b.maxInstances = some most → least ≤ most)
            ∧ ∀ f ∈ b.fields, ¬(f.items.isSome = true ∧ f.dataSource.isSome = true) := by
  have hvalid := valid_onTheWay hp (yields_form doc d hread) hr hdeltas hx
  have hback : Form.read (Datum.ofValue x.write) = .ok x.carried := (readsBack_form hvalid).reads
  refine ⟨⟨x.carried, hback, write_carried x, carried_carried hvalid⟩, ?_, hvalid.blocks.distinct,
    fun b hb => ⟨?_, fun f hf hboth => ?_⟩⟩
  · rw [hback, Except.ok.injEq, carried_eq_self_iff]
  · exact (block_law_eq_none_iff b).mp (hvalid.blocks.each b hb).law
  · have hlaw := (field_law_eq_none_iff f).mp ((hvalid.blocks.each b hb).fields f hf).law
    rw [hboth.1, hboth.2] at hlaw
    cases hlaw

/-! ## The nickname under a delta -/

/-- A delta that demands the nickname, and sets one key of its status to null. -/
def demanding : RuleDelta :=
  ⟨[], [⟨"nickname", some [⟨"required", none, ""⟩], some ⟨.template "false", .cleared, .unset⟩⟩]⟩

/-- The document that the delta comes from. -/
def demandingDocument : Datum :=
  .mapping [(.text "fields", .sequence [.mapping [(.text "id", .text "nickname"),
    (.text "validation", .sequence [.mapping [(.text "type", .text "required")]]),
    (.text "status", .mapping [(.text "hidden", .text "false"), (.text "disabled", .null)])]])]

theorem read_demandingDocument : RuleDelta.read demandingDocument = .ok demanding := by rfl

/-- The nickname under the delta is read back, and written again as before. But it declares null as
its default, and what is read back does not. -/
theorem onTheWay_readsBack_nickname :
    Form.read nicknameDocument = .ok nicknameForm
      ∧ nicknameForm.resolveFrom (.nothing : Provider Unit) 50 () = (.ok nicknameForm, ())
      ∧ RuleDelta.read demandingDocument = .ok demanding
      ∧ (∃ y, Form.read (Datum.ofValue (nicknameForm.merge demanding).write) = .ok y
        ∧ y.write = (nicknameForm.merge demanding).write
        ∧ y.SaysSame (nicknameForm.merge demanding))
      ∧ Form.read (Datum.ofValue (nicknameForm.merge demanding).write) ≠
        .ok (nicknameForm.merge demanding) := by
  have hdeltas : ∀ δ ∈ [demanding], δ.Valid :=
    List.forall_mem_singleton.mpr (yields_delta _ _ read_demandingDocument)
  have hway : (nicknameForm.merge demanding).OnTheWay nicknameForm nicknameForm [demanding] :=
    .inr ⟨1, rfl⟩
  obtain ⟨hback, hexact, -⟩ := onTheWay_readsBack read_nicknameDocument
    givesRead_nothing resolveFrom_nicknameForm hdeltas hway
  refine ⟨read_nicknameDocument, resolveFrom_nicknameForm, read_demandingDocument, hback,
    fun heq => ?_⟩
  have hnulls := (hexact.mp heq) _ (List.mem_singleton_self _)
  exact (hnulls.1 _ (List.mem_singleton_self _)).default rfl

end Formwork.Proofs
