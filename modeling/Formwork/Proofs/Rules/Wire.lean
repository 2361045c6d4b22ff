import Formwork.Proofs.Document.RoundTrip
import Formwork.Proofs.Rules.Overlay
import Formwork.Proofs.Sample
import Formwork.Tool.Target

/-!
# Deltas that go over the wire

A delta can be asked for by one call and be merged by another. In between it is written and
read again, and its wire form leaves out the keys that it sets to null. Such a key clears a
template when the delta is merged as it was given; once the delta has been written, the
template stays.

So the two ways agree on a form exactly when the delta takes nothing away from it
(`TakesNothing`): under every key that the entry which counts sets to null, there was no
template to begin with.
-/

namespace Formwork.Proofs

open Formwork

/-! ## Statuses -/

/-- An overlay clears no template that is there. -/
def Unclearing (base top : Option Status) : Prop :=
  ∀ t, top = some t → ∀ k, entryAt t k = .cleared → templateAt base k = none

/-- What an overlay without its nulls leaves under a key. -/
theorem templateAt_merge?_onlyTemplates (base : Option Status) (t : Status) (k : StatusKey) :
    templateAt (Status.merge? base (some t.onlyTemplates)) k =
      if (entryAt t k).text? = none then templateAt base k else (entryAt t k).text? := by
  rw [templateAt_merge?, entryAt_onlyTemplates]
  cases entryAt t k <;> rfl

theorem merge?_onlyTemplates_eq_iff (base top : Option Status) :
    Status.merge? base (top.map Status.onlyTemplates) = Status.merge? base top ↔
      Unclearing base top := by
  cases top with
  | none => exact iff_of_true rfl nofun
  | some t =>
      have hkeys : Status.merge? base (some t.onlyTemplates) = Status.merge? base (some t) ↔
          ∀ k, templateAt (Status.merge? base (some t.onlyTemplates)) k =
            templateAt (Status.merge? base (some t)) k := by
        refine ⟨fun h k => by rw [h], fun h => ?_⟩
        refine settled?_eq_iff.mpr fun k => ?_
        rw [← templateAt_settled?, ← templateAt_settled?]
        exact h k
      rw [Option.map_some, hkeys]
      constructor
      · intro h t' ht k hcleared
        cases ht
        have hk := h k
        rw [templateAt_merge?_onlyTemplates, templateAt_merge?, hcleared] at hk
        exact hk
      · intro h k
        rw [templateAt_merge?_onlyTemplates, templateAt_merge?]
        cases hentry : entryAt t k with
        | unset => rfl
        | cleared => exact h t rfl k hentry
        | template s => rfl

/-! ## Fields, blocks and the form -/

/-- The entry that counts is the same when the entries keep their ids. -/
theorem find?_reverse_map {ρ : Type} (idOf : ρ → String) (carried : ρ → ρ)
    (hid : ∀ r, idOf (carried r) = idOf r) (entries : List ρ) (id : String) :
    (entries.map carried).reverse.find? (idOf · == id) =
      (entries.reverse.find? (idOf · == id)).map carried := by
  rw [← List.map_reverse, List.find?_map]
  congr 2
  funext r
  rw [Function.comp_apply, hid]

theorem field?_carried (d : RuleDelta) (id : String) :
    d.carried.field? id = (d.field? id).map FieldRule.carried :=
  find?_reverse_map FieldRule.id FieldRule.carried (fun _ => rfl) d.fields id

theorem block?_carried (d : RuleDelta) (id : String) :
    d.carried.block? id = (d.block? id).map BlockRule.carried :=
  find?_reverse_map BlockRule.id BlockRule.carried (fun _ => rfl) d.blocks id

/-- What counts for a field clears none of its templates. -/
def SparesField (d : RuleDelta) (f : Field) : Prop :=
  ∀ r, LastWith FieldRule.id d.fields f.id r → Unclearing f.status r.status

/-- What counts for a block clears none of its templates. -/
def SparesBlock (d : RuleDelta) (b : Block) : Prop :=
  ∀ r, LastWith BlockRule.id d.blocks b.id r → Unclearing b.status r.status

/-- A delta takes no template away from a form. -/
def TakesNothing (d : RuleDelta) (f : Form) : Prop :=
  ∀ b ∈ f.blocks, SparesBlock d b ∧ ∀ x ∈ b.fields, SparesField d x

theorem sparesField_iff (d : RuleDelta) (f : Field) :
    SparesField d f ↔ ∀ r, d.field? f.id = some r → Unclearing f.status r.status := by
  simp only [SparesField, field?_eq_some_iff]

theorem sparesBlock_iff (d : RuleDelta) (b : Block) :
    SparesBlock d b ↔ ∀ r, d.block? b.id = some r → Unclearing b.status r.status := by
  simp only [SparesBlock, block?_eq_some_iff]

theorem field_merge_carried_iff (d : RuleDelta) (f : Field) :
    f.merge d.carried = f.merge d ↔ SparesField d f := by
  have hrule := field?_carried d f.id
  rw [sparesField_iff]
  cases hlast : d.field? f.id with
  | none =>
      rw [hlast] at hrule
      rw [field_merge_of_none hlast, field_merge_of_none hrule]
      exact iff_of_true rfl nofun
  | some r =>
      rw [hlast] at hrule
      simp only [Option.some.injEq, forall_eq']
      rw [field_merge_of_some hlast, field_merge_of_some hrule, ← merge?_onlyTemplates_eq_iff,
        Field.mk.injEq]
      -- all parts but the status are the same on both sides
      simp only [FieldRule.carried, true_and, and_true]

theorem block_status_carried_iff (d : RuleDelta) (b : Block) :
    (b.merge d.carried).status = (b.merge d).status ↔ SparesBlock d b := by
  have hstatus (d : RuleDelta) : (b.merge d).status =
      Status.merge? b.status ((d.block? b.id).bind BlockRule.status) := rfl
  rw [hstatus, hstatus, block?_carried, sparesBlock_iff]
  cases d.block? b.id with
  | none => exact iff_of_true rfl nofun
  | some r =>
      simp only [Option.some.injEq, forall_eq']
      exact merge?_onlyTemplates_eq_iff b.status r.status

theorem block_merge_carried_iff (d : RuleDelta) (b : Block) :
    b.merge d.carried = b.merge d ↔ SparesBlock d b ∧ ∀ x ∈ b.fields, SparesField d x := by
  have hparts : b.merge d.carried = b.merge d ↔
      (b.fields.map fun f => f.merge d.carried) = (b.fields.map fun f => f.merge d)
        ∧ (b.merge d.carried).status = (b.merge d).status := by
    simp only [Block.merge, Block.mk.injEq, true_and, and_true]
  rw [hparts, block_status_carried_iff, List.map_inj_left, and_comm]
  exact and_congr_right fun _ => forall₂_congr fun x _ => field_merge_carried_iff d x

/-- Merging what the wire form carries is merging the delta itself when it takes nothing away. -/
theorem merge_carried_iff (d : RuleDelta) (f : Form) :
    f.merge d.carried = f.merge d ↔ TakesNothing d f := by
  have hparts : f.merge d.carried = f.merge d ↔
      (f.blocks.map fun b => b.merge d.carried) = f.blocks.map fun b => b.merge d := by
    simp only [Form.merge, Form.mk.injEq, true_and, and_true]
  rw [hparts, List.map_inj_left]
  exact forall₂_congr fun b _ => block_merge_carried_iff d b

/-! ## Over the wire -/

/-- What comes with a call is merged as what its wire form carries. -/
theorem underDelta_write {d : RuleDelta} (hd : d.Valid) (f : Form) :
    App.underDelta f (some d.write) = .ok (f.merge d.carried) := by
  rw [App.underDelta, (readsBack_delta hd).reads]

theorem prepare_write {ρ : Type} {a : App ρ} {target : Target} {s s' : Session} {f : Form}
    {d : RuleDelta} (hd : d.Valid) (h : a.prepare target none s = (.ok f, s')) :
    a.prepare target (some d.write) s = (.ok (f.merge d.carried), s') := by
  unfold App.prepare at h ⊢
  cases htarget : target.form? a.forms with
  | error r =>
      rw [htarget] at h
      cases h
  | ok form =>
      rw [htarget] at h
      dsimp only at h ⊢
      split at h
      · cases h
      · cases h
        rw [underDelta_write hd]

/--
**A delta is merged from its wire form as it was given, but for what it takes away.**

Whatever delta was read can be written and read again, and then has its nulls no more. So a form
that is prepared with it from the outside is the form under the delta without them; and it is the
form under the delta itself exactly when no template was there under a key that the delta clears.
-/
theorem merge_from_wire {doc : Datum} {d : RuleDelta} (h : RuleDelta.read doc = .ok d) (f : Form) :
    RuleDelta.read (Datum.ofValue d.write) = .ok d.carried
      ∧ App.underDelta f (some d.write) = .ok (f.merge d.carried)
      ∧ (App.underDelta f (some d.write) = .ok (f.merge d) ↔ TakesNothing d f)
      ∧ ∀ (ρ : Type) (a : App ρ) target s s', a.prepare target none s = (.ok f, s') →
          a.prepare target (some d.write) s = (.ok (f.merge d.carried), s') := by
  have hd : d.Valid := yields_delta doc d h
  refine ⟨(readsBack_delta hd).reads, underDelta_write hd f, ?_, fun _ _ _ _ _ => prepare_write hd⟩
  rw [underDelta_write hd, Except.ok.injEq, merge_carried_iff]

/-! ## A template that is not cleared -/

/-- A form whose only field is hidden. -/
def hiddenForm : Form :=
  ⟨none, none, "1.0",
    [fieldBlock "main" [{ textField "nick" with
      status := some ⟨.template "true", .unset, .unset⟩ }]], none⟩

/-- The delta that shows the field: it sets the key to null. -/
def showing : RuleDelta := ⟨[], [⟨"nick", none, some ⟨.cleared, .unset, .unset⟩⟩]⟩

/-- The document that the delta comes from. -/
def showingDocument : Datum :=
  .mapping [(.text "fields", .sequence [.mapping [(.text "id", .text "nick"),
    (.text "status", .mapping [(.text "hidden", .null)])]])]

theorem read_showingDocument : RuleDelta.read showingDocument = .ok showing := by rfl

/-- Merged from the wire the delta leaves the field hidden. -/
theorem merge_from_wire_showing :
    RuleDelta.read showingDocument = .ok showing
      ∧ RuleDelta.read (Datum.ofValue showing.write) = .ok showing.carried
      ∧ App.underDelta hiddenForm (some showing.write) = .ok hiddenForm := by
  obtain ⟨hread, hmerge, -⟩ := merge_from_wire read_showingDocument hiddenForm
  refine ⟨read_showingDocument, hread, hmerge.trans ?_⟩
  rfl

/-- Merged as it was given the delta shows the field. -/
theorem hidden_from_wire :
    RuleDelta.read showingDocument = .ok showing
      ∧ App.underDelta hiddenForm (some showing.write) ≠ .ok (hiddenForm.merge showing) := by
  refine ⟨read_showingDocument, ?_⟩
  rw [underDelta_write (yields_delta _ _ read_showingDocument), Ne, Except.ok.injEq]
  decide

end Formwork.Proofs
