import Formwork.Proofs.Rules.Overlay
import Formwork.Proofs.Sample

/-!
# Merging again, and in another order

A delta assigns attributes: the rules of a field, and each key of a status that its last entry for
the field or block sets, be it to null (`RuleDelta.Assigns`). A merge writes just these, so merging
the same delta again changes nothing, and two deltas that assign no attribute of one target both
(`RuleDelta.ApartFrom`) may be merged in either order.

What could tell the orders apart is a status with nothing left in it, which is dropped on the way
and made anew by the next overlay. But settling only keeps the templates, and each key of the end
result is decided by itself.
-/

namespace Formwork

open Formwork.Proofs (StatusKey LastWith entryAt)

/-- What an entry of a delta is about. -/
inductive MergeTarget where
  | field (id : String)
  | block (id : String)

/-- What an entry of a delta can change. -/
inductive MergeAttribute where
  | rules
  | status (key : StatusKey)

/-- The status of an entry sets a key. -/
def SetsKey (status : Option Status) (k : StatusKey) : Prop :=
  ∃ t, status = some t ∧ entryAt t k ≠ .unset

namespace RuleDelta

/-- The last entry of a delta for a target says what the target has as an attribute. -/
def Assigns (d : RuleDelta) : MergeTarget → MergeAttribute → Prop
  | .field id, .rules => ∃ r, LastWith FieldRule.id d.fields id r ∧ r.validation ≠ none
  | .field id, .status k => ∃ r, LastWith FieldRule.id d.fields id r ∧ SetsKey r.status k
  | .block _, .rules => False
  | .block id, .status k => ∃ r, LastWith BlockRule.id d.blocks id r ∧ SetsKey r.status k

/-- No attribute of a target is assigned by both deltas. -/
def ApartFrom (d e : RuleDelta) : Prop := ∀ target a, d.Assigns target a → ¬e.Assigns target a

end RuleDelta

end Formwork

namespace Formwork.Proofs

open Formwork

/-! ## Statuses -/

section Statuses

variable {base top other : Option Status}

/-- An overlay that was there before changes nothing. -/
theorem merge?_again (base top : Option Status) :
    Status.merge? (Status.merge? base top) top = Status.merge? base top := by
  cases top with
  | none => rfl
  | some t =>
      show Status.settled? _ = Status.settled? _
      refine settled?_eq_iff.mpr fun k => ?_
      rw [entryAt_overlay, entryAt_overlay, text?_overlay, text?_overlay, templateAt_getD_empty,
        templateAt_getD_empty, templateAt_merge?]
      split <;> rfl

/-- Overlays that set no key both may come in either order. -/
theorem merge?_comm (h : ∀ k, SetsKey top k → ¬SetsKey other k) :
    Status.merge? (Status.merge? base top) other =
      Status.merge? (Status.merge? base other) top := by
  cases top with
  | none => rfl
  | some t =>
      cases other with
      | none => rfl
      | some u =>
          show Status.settled? _ = Status.settled? _
          refine settled?_eq_iff.mpr fun k => ?_
          rw [entryAt_overlay, entryAt_overlay, text?_overlay, text?_overlay,
            templateAt_getD_empty, templateAt_getD_empty, templateAt_merge?, templateAt_merge?]
          by_cases ht : entryAt t k = .unset
          · rw [if_pos ht, if_pos ht]
          · have hu : entryAt u k = .unset := by
              by_contra hset
              exact h k ⟨t, rfl, ht⟩ ⟨u, rfl, hset⟩
            rw [if_pos hu, if_pos hu]

end Statuses

/-! ## What a delta says of a target -/

theorem LastWith.mem {ρ : Type} {idOf : ρ → String} {entries : List ρ} {id : String} {e : ρ}
    (h : LastWith idOf entries id e) : e ∈ entries := by
  obtain ⟨before, after, rfl, -⟩ := h
  simp

section Targets

variable {d e : RuleDelta} {id : String} {k : StatusKey}

/-- What the last entry for a field says, if there is one, is all that a delta does to the field. -/
theorem field_merge_eq (f : Field) (d : RuleDelta) :
    f.merge d = { f with
      validation := ((d.field? f.id).bind FieldRule.validation).getD f.validation
      status := Status.merge? f.status ((d.field? f.id).bind FieldRule.status) } := by
  cases h : d.field? f.id with
  | none => rw [field_merge_of_none h]; rfl
  | some r => rw [field_merge_of_some h]; rfl

theorem assigns_field_rules_iff :
    d.Assigns (.field id) .rules ↔ (d.field? id).bind FieldRule.validation ≠ none := by
  simp only [RuleDelta.Assigns, ← field?_eq_some_iff, Ne, Option.bind_eq_none_iff]
  push Not
  rfl

theorem assigns_field_status_iff :
    d.Assigns (.field id) (.status k) ↔ SetsKey ((d.field? id).bind FieldRule.status) k := by
  simp only [RuleDelta.Assigns, ← field?_eq_some_iff, SetsKey, Option.bind_eq_some_iff]
  tauto

theorem assigns_block_status_iff :
    d.Assigns (.block id) (.status k) ↔ SetsKey ((d.block? id).bind BlockRule.status) k := by
  simp only [RuleDelta.Assigns, ← block?_eq_some_iff, SetsKey, Option.bind_eq_some_iff]
  tauto

end Targets

/-! ## Fields and blocks -/

/-- Rules that are replaced are replaced again by the same. -/
theorem getD_again {α : Type} (rules : Option α) (base : α) :
    rules.getD (rules.getD base) = rules.getD base := by
  cases rules <;> rfl

theorem getD_comm {α : Type} {rules others : Option α} (h : rules ≠ none → ¬others ≠ none)
    (base : α) : others.getD (rules.getD base) = rules.getD (others.getD base) := by
  cases rules with
  | none => rfl
  | some r =>
      rw [not_not.mp (h nofun)]
      rfl

theorem field_merge_again (f : Field) (d : RuleDelta) : (f.merge d).merge d = f.merge d := by
  simp only [field_merge_eq, getD_again, merge?_again]

theorem block_merge_again (b : Block) (d : RuleDelta) : (b.merge d).merge d = b.merge d := by
  simp only [Block.merge, List.map_map, Function.comp_def, field_merge_again, merge?_again]

section Commuting

variable {d e : RuleDelta}

theorem field_merge_comm (h : d.ApartFrom e) (f : Field) :
    (f.merge d).merge e = (f.merge e).merge d := by
  have hrules := fun hset hboth =>
    h (.field f.id) .rules (assigns_field_rules_iff.mpr hset) (assigns_field_rules_iff.mpr hboth)
  have hstatus := fun k hset hboth =>
    h (.field f.id) (.status k) (assigns_field_status_iff.mpr hset)
      (assigns_field_status_iff.mpr hboth)
  simp only [field_merge_eq, getD_comm hrules, merge?_comm hstatus]

theorem block_merge_comm (h : d.ApartFrom e) (b : Block) :
    (b.merge d).merge e = (b.merge e).merge d := by
  have hstatus := fun k hset hboth =>
    h (.block b.id) (.status k) (assigns_block_status_iff.mpr hset)
      (assigns_block_status_iff.mpr hboth)
  simp only [Block.merge, List.map_map, Function.comp_def, field_merge_comm h,
    merge?_comm hstatus]

end Commuting

/--
**Merging is idempotent, and deltas that are apart commute.**

A form under a delta is the same under the delta again. Two deltas of which no attribute is assigned
by both give the same form in either order, though both may be about the same field or block, and
though one of them may leave a status empty on the way.
-/
theorem merging_algebra (f : Form) :
    (∀ d : RuleDelta, (f.merge d).merge d = f.merge d)
      ∧ ∀ d e : RuleDelta, d.ApartFrom e → (f.merge d).merge e = (f.merge e).merge d := by
  refine ⟨fun d => ?_, fun d e h => ?_⟩
  · simp only [Form.merge, List.map_map, Function.comp_def, block_merge_again]
  · simp only [Form.merge, List.map_map, Function.comp_def, block_merge_comm h]

/-! ## Two deltas about one field -/

/-- A form whose only block has a status, and so has its only field. -/
def guardedForm : Form :=
  ⟨none, none, "1.0",
    [{ fieldBlock "main" [{ textField "nick" with
        status := some ⟨.template "true", .unset, .unset⟩ }] with
      status := some ⟨.template "{{a}}", .unset, .unset⟩ }], none⟩

/-- A delta that shows the block and the field, which leaves both without a status. What its earlier
entry for the field says does not count. -/
def revealing : RuleDelta :=
  ⟨[⟨"main", some ⟨.cleared, .unset, .unset⟩⟩],
    [⟨"nick", some [], some ⟨.unset, .template "no", .unset⟩⟩,
      ⟨"nick", none, some ⟨.cleared, .unset, .unset⟩⟩]⟩

/-- A delta that locks the block and the field, and requires the field. -/
def locking : RuleDelta :=
  ⟨[⟨"main", some ⟨.unset, .template "true", .unset⟩⟩],
    [⟨"nick", some [⟨"required", none, ""⟩], some ⟨.unset, .template "true", .cleared⟩⟩]⟩

/-- The statuses of the first delta set one key. -/
theorem eq_hidden_of_setsKey {k : StatusKey}
    (h : SetsKey (some ⟨.cleared, .unset, .unset⟩) k) : k = .hidden := by
  obtain ⟨t, ht, hset⟩ := h
  cases ht
  cases k with
  | hidden => rfl
  | disabled | readonly => exact absurd rfl hset

theorem eq_hidden_of_revealing {target : MergeTarget} {a : MergeAttribute}
    (h : revealing.Assigns target a) : a = .status .hidden := by
  cases target with
  | field id =>
      have hfound : ∃ r, revealing.field? id = some r := by
        cases a with
        | rules | status => exact h.imp fun r hr => field?_eq_some_iff.mpr hr.1
      have hid : id = "nick" := by
        by_contra hne
        have hnone : revealing.field? id = none :=
          find?_reverse_eq_none_iff.mpr (by simpa [revealing] using Ne.symm hne)
        rw [hnone] at hfound
        simp at hfound
      subst hid
      cases a with
      | rules => exact absurd rfl (assigns_field_rules_iff.mp h)
      | status k => rw [eq_hidden_of_setsKey (assigns_field_status_iff.mp h)]
  | block id =>
      cases a with
      | rules => exact h.elim
      | status k =>
          obtain ⟨r, hr, hset⟩ := h
          rw [List.mem_singleton.mp hr.mem] at hset
          rw [eq_hidden_of_setsKey hset]

/-- The two deltas are about one block and one field, and apart. -/
theorem revealing_apart : revealing.ApartFrom locking := by
  intro target a hset hboth
  rw [eq_hidden_of_revealing hset] at hboth
  -- no entry of the second delta sets this key
  cases target with
  | field id | block id =>
      obtain ⟨r, hr, t, ht, hkey⟩ := hboth
      rw [List.mem_singleton.mp hr.mem] at ht
      cases ht
      exact hkey rfl

/-- The first delta empties both statuses, and still the order makes no difference. -/
theorem merging_algebra_revealing :
    revealing.ApartFrom locking
      ∧ (guardedForm.merge revealing).fields.map Field.status = [none]
      ∧ (guardedForm.merge revealing).merge locking = (guardedForm.merge locking).merge revealing
      ∧ (guardedForm.merge revealing).merge revealing = guardedForm.merge revealing :=
  ⟨revealing_apart, by decide, (merging_algebra guardedForm).2 _ _ revealing_apart,
    (merging_algebra guardedForm).1 _⟩

end Formwork.Proofs
