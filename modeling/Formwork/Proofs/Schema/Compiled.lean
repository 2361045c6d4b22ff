import Formwork.Proofs.Schema.Members
import Formwork.Proofs.Values.Defaults
import Mathlib.Data.List.Induction

/-!
# What a schema is compiled from

A schema has a path for every field that holds a value of its own, under the field's id, and
an id for every group with the group's members, wherever in the blocks they stand. Fields
with one id share a path, and the last of them has it; the members of a group stay apart, in
the order of the document, even where they share a key.
-/

namespace Formwork.Proofs

open Formwork

/-- The fields that are members of a group. -/
def membersOf (fields : List Field) (group : String) : List Field :=
  fields.filter fun f => f.memberOf? = some group

/-! ## Groups -/

section Groups

variable {fields : List Field} {group : String}

theorem mem_membersOf {f : Field} : f ∈ membersOf fields group ↔
    f ∈ fields ∧ f.memberOf? = some group := by
  simp [membersOf]

theorem groupedFields_concat (fields : List Field) (f : Field) :
    groupedFields (fields ++ [f]) = joinGroup (groupedFields fields) f := by
  unfold groupedFields
  rw [List.foldl_append]
  rfl

/-- **A group has all its members, in the order of the document.** -/
theorem get?_groupedFields (fields : List Field) (group : String) :
    Ordered.get? (groupedFields fields) group =
      if membersOf fields group = [] then none else some (membersOf fields group) := by
  induction fields using List.reverseRecOn with
  | nil => rfl
  | append_singleton fields f ih =>
      rw [groupedFields_concat, joinGroup, membersOf, List.filter_append, ← membersOf]
      cases hf : f.memberOf? with
      | none => simpa [hf] using ih
      | some g =>
          dsimp only
          rw [Ordered.push, Ordered.get?_insert]
          by_cases hg : group = g
          · subst hg
            rw [ih]
            by_cases hnone : membersOf fields group = [] <;> simp [hf, hnone]
          · have hg' : g ≠ group := fun heq => hg heq.symm
            simpa [hf, hg, hg'] using ih

theorem nodup_keys_groupedFields (fields : List Field) :
    (Ordered.keys (groupedFields fields)).Nodup := by
  induction fields using List.reverseRecOn with
  | nil => exact List.nodup_nil
  | append_singleton fields f ih =>
      rw [groupedFields_concat, joinGroup]
      cases f.memberOf? with
      | none => exact ih
      | some g => exact nodup_keys_insert ih g _

theorem mem_groupedFields {e : String × List Field} (h : e ∈ groupedFields fields) :
    e.2 = membersOf fields e.1 ∧ membersOf fields e.1 ≠ [] := by
  have hget := get?_of_mem (nodup_keys_groupedFields fields) h
  rw [get?_groupedFields] at hget
  split at hget
  · cases hget
  · rename_i hsome
    exact ⟨(Option.some.inj hget).symm, hsome⟩

/-- A group that has a member belongs to a block. -/
theorem groupOwner?_of_mem {blocks : List Block} {e : String × List Field}
    (h : e ∈ groupedFields (blocks.flatMap Block.fields)) :
    ∃ owner, groupOwner? blocks e.1 = some owner := by
  obtain ⟨f, hf⟩ := List.exists_mem_of_ne_nil _ (mem_groupedFields h).2
  obtain ⟨hf, hmember⟩ := mem_membersOf.mp hf
  obtain ⟨b, hb, hfb⟩ := List.mem_flatMap.mp hf
  cases howner : groupOwner? blocks e.1 with
  | some owner => exact ⟨owner, rfl⟩
  | none =>
      have hno := List.find?_eq_none.mp howner b hb
      exact absurd (List.any_eq_true.mpr ⟨f, hfb, by simpa using hmember⟩) hno

end Groups

/-! ## The compiled schema -/

/-- Entries that each give one with their key give a map with the same keys. -/
theorem keys_filterMapM {ε α β : Type} {g : String × α → Except ε (Option (String × β))}
    {m : Ordered α} {out : List (String × β)}
    (hg : ∀ e ∈ m, ∀ found, g e = .ok found → ∃ v, found = some (e.1, v))
    (h : m.filterMapM g = .ok out) : Ordered.keys out = Ordered.keys m := by
  induction m generalizing out with
  | nil => cases h; rfl
  | cons e rest ih =>
      obtain ⟨hhead, hrest⟩ := List.forall_mem_cons.mp hg
      rw [List.filterMapM_cons] at h
      obtain ⟨found, hfound, htail⟩ := bind_eq_ok.mp h
      obtain ⟨v, rfl⟩ := hhead found hfound
      obtain ⟨more, hmore, heq⟩ := bind_eq_ok.mp htail
      cases heq
      rw [Ordered.keys, List.map_cons, Ordered.keys, List.map_cons]
      exact congrArg _ (ih hrest hmore)

section Compiled

variable {validators : Ordered CustomValidator} {blocks : List Block} {schema : Schema}

theorem ofBlocks_eq_ok (h : Schema.ofBlocks validators blocks = .ok schema) :
    ∃ own groups,
      entries Field.id (fun f => f.compile validators)
          (ownFields (blocks.flatMap Block.fields)) = .ok own
        ∧ (groupedFields (blocks.flatMap Block.fields)).filterMapM (fun e =>
            match groupOwner? blocks e.1 with
            | some owner => (compileGroup validators owner e.1 e.2).map fun s => some (e.1, s)
            | none => .ok none) = .ok groups
        ∧ schema = ⟨Ordered.ofList own, groups⟩ := by
  obtain ⟨own, hown, h⟩ := bind_eq_ok.mp h
  obtain ⟨groups, hgroups, heq⟩ := bind_eq_ok.mp h
  cases heq
  refine ⟨own, groups, ?_, hgroups, rfl⟩
  rw [← hown, entries]
  simp only [← bind_ok_eq_map]

/-- The chain at a path is that of a field with this id. -/
theorem field_of_mem_schema (h : Schema.ofBlocks validators blocks = .ok schema)
    {e : String × FieldSchema} (he : e ∈ schema.fields) :
    ∃ f ∈ ownFields (blocks.flatMap Block.fields), f.id = e.1 ∧ f.compile validators = .ok e.2 := by
  obtain ⟨own, groups, hown, -, rfl⟩ := ofBlocks_eq_ok h
  obtain ⟨f, hf, hentry⟩ := mem_mapM hown (mem_of_ofList he)
  obtain ⟨c, hc, heq⟩ := map_eq_ok.mp hentry
  subst heq
  exact ⟨f, hf, rfl, hc⟩

theorem mem_keys_fields (h : Schema.ofBlocks validators blocks = .ok schema) {path : String} :
    path ∈ Ordered.keys schema.fields ↔
      path ∈ (ownFields (blocks.flatMap Block.fields)).map Field.id := by
  obtain ⟨own, groups, hown, -, rfl⟩ := ofBlocks_eq_ok h
  rw [← keys_entries hown]
  exact mem_keys_ofList

/-- The members of a group are compiled from the fields that name it. -/
theorem group_of_mem_schema (h : Schema.ofBlocks validators blocks = .ok schema)
    {e : String × GroupSchema} (he : e ∈ schema.groups) :
    ∃ owner, compileGroup validators owner e.1
      (membersOf (blocks.flatMap Block.fields) e.1) = .ok e.2 := by
  obtain ⟨owner, members, hmem, -, hcompile⟩ := compiled_of_mem_groups h he
  exact ⟨owner, (mem_groupedFields hmem).1 ▸ hcompile⟩

/-- A group of the schema is a group of the fields. -/
theorem grouped_of_mem_schema (h : Schema.ofBlocks validators blocks = .ok schema)
    {e : String × GroupSchema} (he : e ∈ schema.groups) :
    (e.1, membersOf (blocks.flatMap Block.fields) e.1) ∈
      groupedFields (blocks.flatMap Block.fields) := by
  obtain ⟨owner, members, hmem, -, -⟩ := compiled_of_mem_groups h he
  have hmembers : members = membersOf (blocks.flatMap Block.fields) e.1 :=
    (mem_groupedFields hmem).1
  exact hmembers ▸ hmem

theorem keys_groups (h : Schema.ofBlocks validators blocks = .ok schema) :
    Ordered.keys schema.groups = Ordered.keys (groupedFields (blocks.flatMap Block.fields)) := by
  obtain ⟨own, groups, -, hgroups, rfl⟩ := ofBlocks_eq_ok h
  refine keys_filterMapM (fun e he found hfound => ?_) hgroups
  obtain ⟨owner, howner⟩ := groupOwner?_of_mem he
  rw [howner] at hfound
  obtain ⟨s, -, rfl⟩ := map_eq_ok.mp hfound
  exact ⟨s, rfl⟩

/-- The chain of a compiled field has the field's kind and its rules. -/
theorem field_compile_eq_ok {f : Field} {c : FieldSchema} (h : f.compile validators = .ok c) :
    c.kind = f.kind ∧ f.validation.mapM (ValidationRule.compile validators f.id) = .ok c.rules := by
  obtain ⟨rules, hrules, heq⟩ := bind_eq_ok.mp h
  cases heq
  exact ⟨rfl, hrules⟩

/-- Every member of a compiled group comes from a field, whose chain it has. -/
theorem field_of_mem_members {owner : Block} {group : String} {fields : List Field}
    {s : GroupSchema} (h : compileGroup validators owner group fields = .ok s) {m : Member}
    (hm : m ∈ s.members) :
    ∃ f ∈ fields, ∃ c, f.compile validators = .ok c
      ∧ m = ⟨plainId group f.id, { c with id := plainId group f.id }⟩ := by
  obtain ⟨members, hmembers, rfl⟩ := compileGroup_eq_ok h
  obtain ⟨f, hf, hmember⟩ := mem_mapM hmembers hm
  obtain ⟨c, hc, rfl⟩ := map_eq_ok.mp hmember
  exact ⟨f, hf, c, hc, rfl⟩

end Compiled

end Formwork.Proofs
