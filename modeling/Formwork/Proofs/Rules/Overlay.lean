import Formwork.Proofs.Rules.Status
import Mathlib.Data.List.Forall2

/-!
# What a delta changes, and what it leaves alone

A delta reaches a form through its last entries: what counts for an id is the last entry
with it (`LastWith`). An entry overlays a status key by key (`Overlaid`): where it sets a
key, be it to null, the key has what the entry says, elsewhere what it had before; and a
status with nothing left in it is dropped.

The rest is a frame. Each field and each block is compared with what it was in its place,
and everything but a field's rules and status and a block's status is the same in both.
-/

namespace Formwork.Proofs

open Formwork

/-! ## The entry that counts -/

section Entries

variable {ρ : Type} {idOf : ρ → String} {entries : List ρ} {id : String}

/-- The last of the entries with an id. -/
def LastWith (idOf : ρ → String) (entries : List ρ) (id : String) (e : ρ) : Prop :=
  ∃ before after, entries = before ++ e :: after ∧ idOf e = id ∧ ∀ e' ∈ after, idOf e' ≠ id

theorem find?_reverse_eq_some_iff {e : ρ} :
    entries.reverse.find? (idOf · == id) = some e ↔ LastWith idOf entries id e := by
  rw [List.find?_eq_some_iff_append]
  constructor
  · rintro ⟨hid, later, earlier, hrev, hlater⟩
    have hsplit : entries = earlier.reverse ++ e :: later.reverse := by
      rw [← List.reverse_reverse entries, hrev]
      simp
    refine ⟨_, _, hsplit, by simpa using hid, fun e' he' => ?_⟩
    have := hlater e' (List.mem_reverse.mp he')
    simpa using this
  · rintro ⟨before, after, rfl, hid, hafter⟩
    refine ⟨by simpa using hid, after.reverse, before.reverse, by simp, fun e' he' => ?_⟩
    simpa using hafter e' (List.mem_reverse.mp he')

theorem find?_reverse_eq_none_iff :
    entries.reverse.find? (idOf · == id) = none ↔ ∀ e ∈ entries, idOf e ≠ id := by
  rw [List.find?_eq_none]
  simp only [List.mem_reverse, beq_iff_eq]

/-- Entries with other ids do not change which entry counts. -/
theorem find?_reverse_filter {keep : ρ → Bool} (h : ∀ e ∈ entries, idOf e = id → keep e = true) :
    (entries.filter keep).reverse.find? (idOf · == id) = entries.reverse.find? (idOf · == id) := by
  cases hlast : entries.reverse.find? (idOf · == id) with
  | none =>
      rw [find?_reverse_eq_none_iff] at hlast ⊢
      exact fun e he => hlast e (List.mem_filter.mp he).1
  | some e =>
      rw [find?_reverse_eq_some_iff] at hlast ⊢
      obtain ⟨before, after, rfl, hid, hafter⟩ := hlast
      refine ⟨before.filter keep, after.filter keep, ?_, hid,
        fun e' he' => hafter e' (List.mem_filter.mp he').1⟩
      rw [List.filter_append, List.filter_cons_of_pos (h e (by simp) hid)]

end Entries

/-! ## Fields and blocks -/

/-- A status becomes another under the status of an entry. -/
structure Overlaid (base top merged : Option Status) : Prop where
  /-- Without an overlay it stays as it is. -/
  kept : top = none → merged = base
  /-- Under each key that the overlay sets it has what the overlay says, elsewhere what it had. -/
  atKey : ∀ t, top = some t → ∀ k, templateAt merged k =
    if entryAt t k = .unset then templateAt base k else (entryAt t k).text?
  /-- With nothing left in it, it is dropped. -/
  dropped : top ≠ none → (∀ k, templateAt merged k = none) → merged = none

theorem merge?_overlaid (base top : Option Status) :
    Overlaid base top (Status.merge? base top) := by
  cases top with
  | none => exact ⟨fun _ => rfl, nofun, fun h => absurd rfl h⟩
  | some t =>
      refine ⟨nofun, ?_, fun _ hnone => ?_⟩
      · intro t' ht k
        cases ht
        exact templateAt_merge? base t k
      · rw [Status.merge?] at hnone ⊢
        rw [settled?_eq]
        refine if_pos (onlyTemplates_eq_empty fun k => ?_)
        rw [← templateAt_settled?, hnone k]

/-- A field becomes another under a delta. -/
structure FieldMerged (d : RuleDelta) (f f' : Field) : Prop where
  /-- Everything but the rules and the status is the same. -/
  frame : { f' with validation := f.validation, status := f.status } = f
  /-- Without an entry the field is the same altogether. -/
  absent : (∀ r ∈ d.fields, r.id ≠ f.id) → f' = f
  validation : ∀ r, LastWith FieldRule.id d.fields f.id r →
    f'.validation = r.validation.getD f.validation
  status : ∀ r, LastWith FieldRule.id d.fields f.id r → Overlaid f.status r.status f'.status

/-- A block becomes another under a delta. -/
structure BlockMerged (d : RuleDelta) (b b' : Block) : Prop where
  /-- Everything but the fields and the status is the same. -/
  frame : { b' with fields := b.fields, status := b.status } = b
  /-- The fields are those of before, in their order, under the delta. -/
  fields : List.Forall₂ (FieldMerged d) b.fields b'.fields
  /-- Without an entry the status is the same. -/
  absent : (∀ r ∈ d.blocks, r.id ≠ b.id) → b'.status = b.status
  status : ∀ r, LastWith BlockRule.id d.blocks b.id r → Overlaid b.status r.status b'.status

theorem field?_eq_some_iff {d : RuleDelta} {id : String} {r : FieldRule} :
    d.field? id = some r ↔ LastWith FieldRule.id d.fields id r := find?_reverse_eq_some_iff

theorem block?_eq_some_iff {d : RuleDelta} {id : String} {r : BlockRule} :
    d.block? id = some r ↔ LastWith BlockRule.id d.blocks id r := find?_reverse_eq_some_iff

theorem field_merge_of_none {d : RuleDelta} {f : Field} (h : d.field? f.id = none) :
    f.merge d = f := by
  rw [Field.merge, h]

theorem field_merge_of_some {d : RuleDelta} {f : Field} {r : FieldRule}
    (h : d.field? f.id = some r) :
    f.merge d = { f with
      validation := r.validation.getD f.validation
      status := Status.merge? f.status r.status } := by
  rw [Field.merge, h]

theorem field_merge_merged (d : RuleDelta) (f : Field) : FieldMerged d f (f.merge d) := by
  refine ⟨?_, ?_, ?_, ?_⟩
  · cases h : d.field? f.id with
    | none => rw [field_merge_of_none h]
    | some r => rw [field_merge_of_some h]
  · intro habsent
    exact field_merge_of_none (find?_reverse_eq_none_iff.mpr habsent)
  · intro r hr
    rw [field_merge_of_some (field?_eq_some_iff.mpr hr)]
  · intro r hr
    rw [field_merge_of_some (field?_eq_some_iff.mpr hr)]
    exact merge?_overlaid _ _

theorem block_merge_merged (d : RuleDelta) (b : Block) : BlockMerged d b (b.merge d) := by
  have hstatus : (b.merge d).status =
      Status.merge? b.status ((d.block? b.id).bind BlockRule.status) := rfl
  refine ⟨rfl, ?_, ?_, ?_⟩
  · show List.Forall₂ _ b.fields (b.fields.map fun f => f.merge d)
    rw [List.forall₂_map_right_iff]
    exact List.forall₂_same.mpr fun f _ => field_merge_merged d f
  · intro habsent
    have hnone : d.block? b.id = none := find?_reverse_eq_none_iff.mpr habsent
    rw [hstatus, hnone]
    rfl
  · intro r hr
    rw [hstatus, block?_eq_some_iff.mpr hr]
    exact merge?_overlaid _ _

/-! ## The form -/

/-- The part of a delta that is about a form: the entries with ids that the form has. -/
def about (f : Form) (d : RuleDelta) : RuleDelta where
  blocks := d.blocks.filter fun r => (f.blocks.map Block.id).contains r.id
  fields := d.fields.filter fun r => (f.fields.map Field.id).contains r.id

/-- Entries without a target have no effect. -/
theorem merge_about (f : Form) (d : RuleDelta) : f.merge (about f d) = f.merge d := by
  have hfield : ∀ b ∈ f.blocks, ∀ x ∈ b.fields, x.merge (about f d) = x.merge d := by
    intro b hb x hx
    have hmem : x ∈ f.fields := List.mem_flatMap.mpr ⟨b, hb, hx⟩
    have hrule : (about f d).field? x.id = d.field? x.id :=
      find?_reverse_filter fun r _ hid => by
        simpa [hid] using ⟨x, hmem, rfl⟩
    rw [Field.merge, Field.merge, hrule]
  have hblock : ∀ b ∈ f.blocks, b.merge (about f d) = b.merge d := by
    intro b hb
    have hrule : (about f d).block? b.id = d.block? b.id :=
      find?_reverse_filter fun r _ hid => by
        simpa [hid] using ⟨b, hb, rfl⟩
    rw [Block.merge, Block.merge, hrule, List.map_congr_left (hfield b hb)]
  rw [Form.merge, Form.merge, List.map_congr_left hblock]

/-- What an entry says of a field holds of every field with its id, wherever it stands. -/
theorem merge_everywhere {f : Form} {d : RuleDelta} {id : String} {r : FieldRule}
    (hr : LastWith FieldRule.id d.fields id r) :
    ∀ x ∈ (f.merge d).fields, x.id = id →
      (∀ rules, r.validation = some rules → x.validation = rules)
        ∧ ∀ t k, r.status = some t → entryAt t k ≠ .unset →
            templateAt x.status k = (entryAt t k).text? := by
  intro x hx hid
  obtain ⟨b', hb', hx⟩ := List.mem_flatMap.mp hx
  obtain ⟨b, -, rfl⟩ := List.mem_map.mp hb'
  obtain ⟨y, -, rfl⟩ := List.mem_map.mp hx
  have hmerged := field_merge_merged d y
  have hy : y.id = id := (congrArg Field.id hmerged.frame).symm.trans hid
  rw [← hy] at hr
  refine ⟨fun rules hrules => ?_, fun t k ht hset => ?_⟩
  · rw [hmerged.validation r hr, hrules]
    rfl
  · rw [(hmerged.status r hr).atKey t ht k, if_neg hset]

/--
**A merge is exact and framed.**

The form under a delta has the blocks of before in their order, and each block the fields of before
in theirs, where nothing is changed but the rules and statuses that the last entries say; all else
of the form is the same. Entries without a target have no effect, and what an entry says of a field
holds of every field with that id, in whatever blocks they are.
-/
theorem merge_exact (f : Form) (d : RuleDelta) :
    { f.merge d with blocks := f.blocks } = f
      ∧ List.Forall₂ (BlockMerged d) f.blocks (f.merge d).blocks
      ∧ f.merge (about f d) = f.merge d
      ∧ ∀ id r, LastWith FieldRule.id d.fields id r →
          ∀ x ∈ (f.merge d).fields, x.id = id →
            (∀ rules, r.validation = some rules → x.validation = rules)
              ∧ ∀ t k, r.status = some t → entryAt t k ≠ .unset →
                  templateAt x.status k = (entryAt t k).text? := by
  refine ⟨rfl, ?_, merge_about f d, fun id r hr => merge_everywhere hr⟩
  show List.Forall₂ _ f.blocks (f.blocks.map fun b => b.merge d)
  rw [List.forall₂_map_right_iff]
  exact List.forall₂_same.mpr fun b _ => block_merge_merged d b

end Formwork.Proofs
