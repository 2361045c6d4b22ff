import Formwork.Proofs.Answer
import Formwork.Proofs.Sample
import Formwork.Schema.Schema

/-!
# How many instances a group may have

A group takes its bounds from the block that it belongs to, which is the first rendered
block with one of its members. A least number of zero is no bound, a greatest number of
zero is one.

What a group reports is decided by its own value alone: it is one piece of the whole
report, between what the other fields and groups report (`validate_at`). It reports
nothing exactly for a list within the bounds whose instances are all accepted
(`issues_eq_nil_iff`). The length is looked at in two places, too many before and too few
after the instances, so each way of being out of bounds is followed on its own.
-/

namespace Formwork.Proofs

open Formwork

/-- The value of a group among form values, null when it is missing. -/
def groupValue (values : Members) (group : String) : Value := (Ordered.get? values group).getD .null

/-- The instances in the value of a group: null has none, and what is no list is not read. -/
def instances? : Value → Option (List Value)
  | .null => some []
  | .list items => some items
  | _ => none

/-- The block lets its groups have this many instances. -/
def Admits (b : Block) (size : Nat) : Prop :=
  b.minInstances.getD 0 ≤ size ∧ ∀ most, b.maxInstances = some most → size ≤ most

/-- The first of the blocks that hosts a member of a group. -/
def Owns (blocks : List Block) (group : String) (b : Block) : Prop :=
  ∃ before after, blocks = before ++ b :: after ∧ (∃ f ∈ b.fields, f.memberOf? = some group)
    ∧ ∀ b' ∈ before, ∀ f ∈ b'.fields, f.memberOf? ≠ some group

/-- The element schema accepts an instance: it is an object, and the schema of each member accepts
what the object has for the member. -/
def Accepts (s : GroupSchema) (item : Value) : Prop :=
  ∃ ms, item = .object ms ∧ ∀ (place : Nat) (m : Member), s.members[place]? = some m →
    ∃ w, m.schema.validate (GroupSchema.read place m.key ms).2 = .ok (.ok w)

/-! ## The instances -/

section Instances

variable {s : GroupSchema}

/-- Nothing is wrong with members when each is accepted. -/
theorem memberFaults_eq_nil_iff {all : List Member} {ms : Members} {place : Nat}
    {members : List Member} :
    GroupSchema.memberFaults all ms place members = .ok [] ↔
      ∀ (i : Nat) (m : Member), members[i]? = some m →
        ∃ w, m.schema.validate (GroupSchema.read (place + i) m.key ms).2 = .ok (.ok w) := by
  induction members generalizing place with
  | nil => simp [GroupSchema.memberFaults]
  | cons m rest ih =>
      -- the first member is at the place itself, the others from the next place on
      have hsplit : (∀ (i : Nat) (m' : Member), (m :: rest)[i]? = some m' →
            ∃ w, m'.schema.validate (GroupSchema.read (place + i) m'.key ms).2 = .ok (.ok w))
          ↔ (∃ w, m.schema.validate (GroupSchema.read place m.key ms).2 = .ok (.ok w))
            ∧ ∀ (i : Nat) (m' : Member), rest[i]? = some m' →
              ∃ w, m'.schema.validate (GroupSchema.read (place + 1 + i) m'.key ms).2 =
                .ok (.ok w) := by
        constructor
        · intro h
          refine ⟨h 0 m rfl, fun i m' hm' => ?_⟩
          have := h (i + 1) m' hm'
          rwa [Nat.add_assoc, Nat.add_comm 1]
        · rintro ⟨hm, hrest⟩ i m' hm'
          cases i with
          | zero => cases hm'; exact hm
          | succ i =>
              have := hrest i m' hm'
              rwa [Nat.add_assoc, Nat.add_comm 1] at this
      rw [hsplit, ← ih]
      rw [GroupSchema.memberFaults, bind_eq_ok]
      constructor
      · rintro ⟨answer, hval, h⟩
        cases answer with
        | ok w => exact ⟨⟨w, hval⟩, h⟩
        | error r =>
            obtain ⟨faults, -, hcons⟩ := bind_eq_ok.mp h
            cases hcons
      · rintro ⟨⟨w, hval⟩, hrest⟩
        exact ⟨.ok w, hval, hrest⟩

theorem instanceFaults_eq_nil_iff {item : Value} :
    s.instanceFaults item = .ok [] ↔ Accepts s item := by
  unfold GroupSchema.instanceFaults Accepts
  split
  · rename_i ms
    simp [memberFaults_eq_nil_iff]
  · rename_i hobj
    constructor
    · intro h; cases h
    · rintro ⟨ms, rfl, -⟩
      exact absurd rfl (hobj ms)

theorem itemFaults_eq_nil_iff (index : Nat) {items : List Value} :
    s.itemFaults index items = .ok [] ↔ ∀ item ∈ items, Accepts s item := by
  induction items generalizing index with
  | nil => simp [GroupSchema.itemFaults]
  | cons item rest ih =>
      rw [List.forall_mem_cons, ← instanceFaults_eq_nil_iff, ← ih (index + 1),
        GroupSchema.itemFaults, bind_eq_ok]
      constructor
      · rintro ⟨faults, hitem, h⟩
        obtain ⟨more, hrest, heq⟩ := bind_eq_ok.mp h
        obtain ⟨hmap, hmore⟩ := List.append_eq_nil_iff.mp (Except.ok.inj heq)
        rw [List.map_eq_nil_iff] at hmap
        rw [hitem, hrest, hmap, hmore]
        exact ⟨rfl, rfl⟩
      · rintro ⟨hitem, hrest⟩
        refine ⟨[], hitem, ?_⟩
        rw [hrest]
        rfl

end Instances

/-! ## The length -/

section Length

variable {s : GroupSchema} {items : List Value}

theorem tooLong?_eq_none_iff {size : Nat} :
    s.tooLong? size = none ↔ ∀ most, s.most = some most → size ≤ most := by
  unfold GroupSchema.tooLong?
  cases s.most with
  | none => simp
  | some most => simp

theorem tooShort?_eq_none_iff {size : Nat} :
    s.tooShort? size = none ↔ s.least.getD 0 ≤ size := by
  unfold GroupSchema.tooShort?
  cases s.least with
  | none => simp
  | some least => simp

/-- A list that is not too long is examined whole. -/
theorem examined_of_fits (h : s.tooLong? items.length = none) : s.examined items = items := by
  unfold GroupSchema.examined
  cases hmost : s.most with
  | none => rfl
  | some most =>
      have := tooLong?_eq_none_iff.mp h most hmost
      exact List.take_of_length_le (by omega)

theorem examined_sublist : (s.examined items).Sublist items := by
  unfold GroupSchema.examined
  cases s.most with
  | none => exact List.Sublist.refl _
  | some most => exact List.take_sublist ..

/-- Nothing is wrong with a list within bounds whose instances are accepted, and with no other. -/
theorem faults_list_eq_nil_iff :
    s.faults (.list items) = .ok [] ↔
      s.tooLong? items.length = none ∧ s.tooShort? items.length = none
        ∧ ∀ item ∈ items, Accepts s item := by
  rw [← itemFaults_eq_nil_iff 0]
  constructor
  · intro h
    obtain ⟨found, hfound, h⟩ := bind_eq_ok.mp h
    cases hlong : s.tooLong? items.length with
    | some r => rw [hlong] at h; cases h
    | none =>
        rw [hlong] at h
        rw [examined_of_fits hlong] at hfound
        cases found with
        | cons f more => cases h
        | nil =>
            cases hshort : s.tooShort? items.length with
            | some r => rw [hshort] at h; cases h
            | none => exact ⟨rfl, rfl, hfound⟩
  · rintro ⟨hlong, hshort, hitems⟩
    simp only [GroupSchema.faults, examined_of_fits hlong, hitems, hlong, hshort]
    rfl

/-- Of accepted instances that are too many, only that is told. -/
theorem faults_of_tooLong {r : Rejection} (hitems : ∀ item ∈ items, Accepts s item)
    (hlong : s.tooLong? items.length = some r) : s.faults (.list items) = .ok [⟨[], r⟩] := by
  have hfound : s.itemFaults 0 (s.examined items) = .ok [] :=
    (itemFaults_eq_nil_iff 0).mpr fun item hitem => hitems item (examined_sublist.mem hitem)
  simp only [GroupSchema.faults, hfound, hlong]
  rfl

/-- Of accepted instances that are too few, only that is told. -/
theorem faults_of_tooShort {r : Rejection} (hitems : ∀ item ∈ items, Accepts s item)
    (hlong : s.tooLong? items.length = none) (hshort : s.tooShort? items.length = some r) :
    s.faults (.list items) = .ok [⟨[], r⟩] := by
  have hfound : s.itemFaults 0 items = .ok [] := (itemFaults_eq_nil_iff 0).mpr hitems
  simp only [GroupSchema.faults, examined_of_fits hlong, hfound, hlong, hshort]
  rfl

end Length

/-! ## The report of a group -/

section Report

variable {s : GroupSchema}

theorem issues_of_instances {v : Value} {items : List Value} (h : instances? v = some items) :
    s.issues v = (s.faults (.list items)).map fun faults =>
      faults.map fun f =>
        ⟨".".intercalate (s.id :: f.path), f.rejection.message, f.rejection.code⟩ := by
  unfold instances? at h
  split at h
  · cases h; rfl
  · cases h; rfl
  · cases h

/-- A rejection of the whole group is one issue at the group. -/
theorem issues_of_fault {v : Value} {items : List Value} {r : Rejection}
    (h : instances? v = some items) (hf : s.faults (.list items) = .ok [⟨[], r⟩]) :
    s.issues v = .ok [⟨s.id, r.message, r.code⟩] := by
  have hpath : ".".intercalate [s.id] = s.id := rfl
  rw [issues_of_instances h, hf]
  simp [Except.map, hpath]

/-- What is no list is reported. -/
theorem issues_ne_nil_of_none {v : Value} (h : instances? v = none) : s.issues v ≠ .ok [] := by
  cases v with
  | null => cases h
  | list items => cases h
  | bool _ | int _ | float _ | str _ | object _ => intro heq; cases heq

/-- **A group reports nothing for a list of accepted instances within its bounds, and only then.** -/
theorem issues_eq_nil_iff {v : Value} :
    s.issues v = .ok [] ↔ ∃ items, instances? v = some items
      ∧ s.tooLong? items.length = none ∧ s.tooShort? items.length = none
      ∧ ∀ item ∈ items, Accepts s item := by
  cases hv : instances? v with
  | none =>
      constructor
      · exact fun h => absurd h (issues_ne_nil_of_none hv)
      · rintro ⟨items, hitems, -⟩; cases hitems
  | some items =>
      rw [issues_of_instances hv, map_eq_ok]
      constructor
      · rintro ⟨faults, hfaults, hmap⟩
        rw [List.map_eq_nil_iff] at hmap
        rw [hmap] at hfaults
        exact ⟨items, rfl, faults_list_eq_nil_iff.mp hfaults⟩
      · rintro ⟨items', heq, h⟩
        cases heq
        exact ⟨[], faults_list_eq_nil_iff.mpr h, rfl⟩

end Report

/-! ## The bounds of a compiled group -/

/-- A group has the bounds of the block that it is compiled for. -/
structure BoundedBy (s : GroupSchema) (group : String) (b : Block) : Prop where
  id : s.id = group
  blockId : s.blockId = b.id
  least : s.least = b.minInstances.filter (· != 0)
  most : s.most = b.maxInstances

/-- A group that is compiled has its members, and the bounds of its block. -/
theorem compileGroup_eq_ok {validators : Ordered CustomValidator} {owner : Block}
    {group : String} {fields : List Field} {s : GroupSchema}
    (h : compileGroup validators owner group fields = .ok s) :
    ∃ members, fields.mapM (compileMember validators group) = .ok members
      ∧ s = ⟨group, owner.id, owner.minInstances.filter (· != 0), owner.maxInstances, members⟩ := by
  obtain ⟨members, hmembers, h⟩ := bind_eq_ok.mp h
  dsimp only at h
  split at h
  · cases h
    exact ⟨members, hmembers, rfl⟩
  · cases h

theorem compileGroup_boundedBy {validators : Ordered CustomValidator} {owner : Block}
    {group : String} {fields : List Field} {s : GroupSchema}
    (h : compileGroup validators owner group fields = .ok s) : BoundedBy s group owner := by
  obtain ⟨members, -, rfl⟩ := compileGroup_eq_ok h
  exact ⟨rfl, rfl, rfl, rfl⟩

theorem owns_of_groupOwner? {blocks : List Block} {group : String} {b : Block}
    (h : groupOwner? blocks group = some b) : Owns blocks group b := by
  obtain ⟨hb, before, after, rfl, hbefore⟩ := List.find?_eq_some_iff_append.mp h
  obtain ⟨f, hf, hgroup⟩ := List.any_eq_true.mp hb
  refine ⟨before, after, rfl, ⟨f, hf, by simpa using hgroup⟩, ?_⟩
  intro b' hb' f' hf' heq
  have hnot := hbefore b' hb'
  have hany : (b'.fields.any fun f => f.memberOf? == some group) = true :=
    List.any_eq_true.mpr ⟨f', hf', by simpa using heq⟩
  rw [hany] at hnot
  cases hnot

/-- Every group of a schema is compiled from its members, for the block that it belongs to. -/
theorem compiled_of_mem_groups {validators : Ordered CustomValidator} {blocks : List Block}
    {schema : Schema} (h : Schema.ofBlocks validators blocks = .ok schema)
    {e : String × GroupSchema} (he : e ∈ schema.groups) :
    ∃ owner members, (e.1, members) ∈ groupedFields (blocks.flatMap Block.fields)
      ∧ groupOwner? blocks e.1 = some owner
      ∧ compileGroup validators owner e.1 members = .ok e.2 := by
  obtain ⟨own, -, h⟩ := bind_eq_ok.mp h
  obtain ⟨groups, hgroups, heq⟩ := bind_eq_ok.mp h
  cases heq
  obtain ⟨⟨g, members⟩, hmem, hg⟩ := mem_filterMapM hgroups he
  dsimp only at hg
  split at hg
  · rename_i owner howner
    obtain ⟨s, hcompile, hpair⟩ := map_eq_ok.mp hg
    cases hpair
    exact ⟨owner, members, hmem, howner, hcompile⟩
  · cases hg

/-- Every group of a schema belongs to a block, and has its bounds. -/
theorem ofBlocks_group {validators : Ordered CustomValidator} {blocks : List Block}
    {schema : Schema} (h : Schema.ofBlocks validators blocks = .ok schema) {group : String}
    {s : GroupSchema} (hs : (group, s) ∈ schema.groups) :
    ∃ b, Owns blocks group b ∧ BoundedBy s group b := by
  obtain ⟨owner, members, -, howner, hcompile⟩ := compiled_of_mem_groups h hs
  exact ⟨owner, owns_of_groupOwner? howner, compileGroup_boundedBy hcompile⟩

/-- The length is within bounds when the block admits it. -/
theorem BoundedBy.fits_iff {s : GroupSchema} {group : String} {b : Block}
    (h : BoundedBy s group b) {size : Nat} :
    (s.tooLong? size = none ∧ s.tooShort? size = none) ↔ Admits b size := by
  have hleast : s.least.getD 0 = b.minInstances.getD 0 := by
    rw [h.least]
    cases b.minInstances with
    | none => rfl
    | some n => cases n <;> rfl
  rw [tooLong?_eq_none_iff, tooShort?_eq_none_iff, hleast, h.most, and_comm]
  rfl

/-! ## The whole report -/

/-- The report of a schema, field by field and group by group. -/
theorem validate_eq (schema : Schema) (values : Members) :
    schema.validate values = (do
      let own ← schema.fields.mapM fun f => Schema.fieldIssues f.1 f.2 (groupValue values f.1)
      let grouped ← schema.groups.mapM fun g => g.2.issues (groupValue values g.1)
      .ok (own.flatten ++ grouped.flatten)) := rfl

/-- **A group's report stands by itself in the whole report**, between what the fields and the
groups before it report and what the groups after it do. -/
theorem validate_at {fields : Ordered FieldSchema} {before after : Ordered GroupSchema}
    {group : String} {s : GroupSchema} (values : Members) :
    (Schema.mk fields (before ++ (group, s) :: after)).validate values = (do
      let earlier ← (Schema.mk fields before).validate values
      let own ← s.issues (groupValue values group)
      let later ← (Schema.mk [] after).validate values
      .ok (earlier ++ own ++ later)) := by
  simp only [validate_eq, List.mapM_append, List.mapM_cons, List.mapM_nil, bind_assoc, pure_bind]
  refine bind_congr fun own => ?_
  refine bind_congr fun grouped => ?_
  show _ = (do
    let part ← s.issues (groupValue values group)
    let rest ← after.mapM fun (g : String × GroupSchema) => g.2.issues (groupValue values g.1)
    Except.ok (own.flatten ++ grouped.flatten ++ part ++ rest.flatten))
  simp only [List.flatten_append, List.flatten_cons, List.append_assoc]

/--
**How many instances a group may have.**

For every group of a compiled form there is the block that it belongs to, and whatever the form values
are: the group reports nothing exactly for a list of accepted instances that its block admits, a
missing value being the empty list; of accepted instances that are too many or too few it reports just
that, at the group itself; and its report is a part of the whole one that the other values have no
share in.
-/
theorem group_cardinality {validators : Ordered CustomValidator} {d : Form} {schema : Schema}
    (h : d.compile validators = .ok schema) {before after : Ordered GroupSchema} {group : String}
    {s : GroupSchema} (hs : schema.groups = before ++ (group, s) :: after) :
    ∃ b, Owns d.renderBlocks group b
      ∧ (∀ values : Members, s.issues (groupValue values group) = .ok [] ↔
          ∃ items, instances? (groupValue values group) = some items ∧ Admits b items.length
            ∧ ∀ item ∈ items, Accepts s item)
      ∧ (∀ (values : Members) (items : List Value),
          instances? (groupValue values group) = some items → (∀ item ∈ items, Accepts s item) →
          (∀ most, b.maxInstances = some most → most < items.length →
              s.issues (groupValue values group) = .ok
                [⟨group, GroupSchema.lengthMessage "at most" most items.length, "too_long"⟩])
            ∧ ∀ least, b.minInstances = some least → items.length < least →
                (∀ most, b.maxInstances = some most → items.length ≤ most) →
                s.issues (groupValue values group) = .ok
                  [⟨group, GroupSchema.lengthMessage "at least" least items.length, "too_short"⟩])
      ∧ ∀ values : Members, schema.validate values = (do
          let earlier ← (Schema.mk schema.fields before).validate values
          let own ← s.issues (groupValue values group)
          let later ← (Schema.mk [] after).validate values
          .ok (earlier ++ own ++ later)) := by
  have hmem : (group, s) ∈ schema.groups := by rw [hs]; simp
  obtain ⟨b, howns, hb⟩ := ofBlocks_group h hmem
  refine ⟨b, howns, ?_, ?_, ?_⟩
  · intro values
    rw [issues_eq_nil_iff]
    refine exists_congr fun items => and_congr_right fun _ => ?_
    rw [← and_assoc, hb.fits_iff]
  · intro values items hitems hall
    constructor
    · intro most hmost hlt
      have hlong : s.tooLong? items.length
          = some ⟨"too_long", GroupSchema.lengthMessage "at most" most items.length⟩ := by
        rw [GroupSchema.tooLong?, hb.most, hmost]
        exact if_pos hlt
      rw [issues_of_fault hitems (faults_of_tooLong hall hlong), hb.id]
    · intro least hleast hlt hfits
      have hlong : s.tooLong? items.length = none :=
        tooLong?_eq_none_iff.mpr (fun most hmost => hfits most (hb.most ▸ hmost))
      have hbound : s.least = some least := by
        have hne : least ≠ 0 := by omega
        rw [hb.least, hleast]
        simp [hne]
      have hshort : s.tooShort? items.length
          = some ⟨"too_short", GroupSchema.lengthMessage "at least" least items.length⟩ := by
        rw [GroupSchema.tooShort?, hbound]
        exact if_pos hlt
      rw [issues_of_fault hitems (faults_of_tooShort hall hlong hshort), hb.id]
  · intro values
    have hschema : schema = ⟨schema.fields, before ++ (group, s) :: after⟩ := by rw [← hs]
    rw [hschema]
    exact validate_at values

/-! ## One or two addresses -/

/-- A field of the addresses. -/
def addressField (id : String) : Field :=
  { textField ("addresses." ++ id) with repeatableGroupId := some "addresses" }

/-- A block that asks for one or two addresses. -/
def addressBlock : Block :=
  { fieldBlock "home" [addressField "city"] with
    repeatable := true, minInstances := some 1, maxInstances := some 2 }

/-- Another block hosts a field of the addresses as well. Its own bound does not count. -/
def addressForm : Form :=
  ⟨none, none, "1.0",
    [addressBlock, { fieldBlock "more" [addressField "zip"] with maxInstances := some 0 }], none⟩

/-- The group of the addresses. -/
def addressGroup : GroupSchema :=
  ⟨"addresses", "home", some 1, some 2,
    [⟨"city", ⟨"city", .text, []⟩⟩, ⟨"zip", ⟨"zip", .text, []⟩⟩]⟩

theorem owns_addresses {b : Block} (h : Owns addressForm.renderBlocks "addresses" b) :
    b = addressBlock := by
  obtain ⟨before, after, hblocks, -, hfirst⟩ := h
  cases before with
  | nil => exact (List.cons.inj hblocks).1.symm
  | cons b' before =>
      -- the first block hosts the city, so nothing stands before the owner
      obtain rfl := (List.cons.inj hblocks).1
      exact absurd rfl (hfirst _ (List.mem_cons_self ..) (addressField "city")
        (List.mem_cons_self ..))

/-- Three empty addresses are one too many; each is accepted, and only their number is told. -/
theorem group_cardinality_addresses :
    addressForm.compile [] = .ok ⟨[], [("addresses", addressGroup)]⟩
      ∧ (∀ item ∈ List.replicate 3 (Value.object []), Accepts addressGroup item)
      ∧ addressGroup.issues
          (groupValue [("addresses", .list (List.replicate 3 (.object [])))] "addresses") = .ok
          [⟨"addresses", "List should have at most 2 items after validation, not 3",
            "too_long"⟩] := by
  have hcompile : addressForm.compile [] = .ok ⟨[], [("addresses", addressGroup)]⟩ := by rfl
  have hgroups : (Schema.mk [] [("addresses", addressGroup)]).groups =
      [] ++ ("addresses", addressGroup) :: [] := rfl
  obtain ⟨b, howns, -, hlength, -⟩ := group_cardinality hcompile hgroups
  obtain rfl := owns_addresses howns
  have haccepts : ∀ item ∈ List.replicate 3 (Value.object []), Accepts addressGroup item := by
    intro item hitem
    obtain rfl := List.eq_of_mem_replicate hitem
    exact instanceFaults_eq_nil_iff.mp rfl
  exact ⟨hcompile, haccepts, (hlength _ _ rfl haccepts).1 2 rfl (by decide)⟩

end Formwork.Proofs
