import Formwork.Proofs.Reference.Templates
import Formwork.Proofs.Values.Shape

/-!
# Members under their own ids

A field that a repeatable block takes over becomes a member of a group, and its id is put
behind the group's, with a point between them. Three readers take that off again, each by
itself: the schema, for the keys of members; the initial values, for the keys of the first
instance; and templates, for the values of an instance that is held under full ids. Each of
them strips the group's id and the point once, from the front, which is what was put there
once: whatever points the two ids have, and even where the field's own id begins with the
group's, what is left is the field's own id (`plainId_namespaced`).

So a group whose members are all taken over by one block has the fields of the templates as
its members, chain by chain, under the ids that they have there (`namespacing_undone`). Two
of them may have one id. They are two members then, but share a key where keys are those of
a map.
-/

namespace Formwork.Proofs

open Formwork

/-! ## One member -/

/-- All that reads the members of a group reads this one under the same id. -/
structure ReadAs (group : String) (member : Field) (id : String) : Prop where
  /-- It is compiled under the id, in its place among the members. -/
  compiled : ∀ (validators : Ordered CustomValidator) (owner : Block) (members : List Field)
    (s : GroupSchema) (i : Nat), compileGroup validators owner group members = .ok s →
    members[i]? = some member → ∃ m, s.members[i]? = some m ∧ m.key = id ∧ m.schema.id = id
  /-- The group's first instance is written from entries, and the member's has the id. -/
  started : ∀ (members : List Field) (context ms : Members) (i : Nat),
    Initial.groupValue group members context = .ok (.list [.object ms]) →
    members[i]? = some member →
    ∃ entries v, ms = Ordered.ofList entries ∧ entries.length = members.length
      ∧ member.initialValue (Scope.ofInstance context group 0 []) = .ok v
      ∧ entries[i]? = some (id, v)
  /-- What an instance holds under the member's full id is seen under the id. -/
  seen : ∀ (held : Members) (i : Nat) (v : Value), held[i]? = some (member.id, v) →
    (Scope.plainValues group held)[i]? = some (id, v)

/-- **The id of a group is stripped where it was put**, and once. -/
theorem plainId_namespaced (group id : String) : plainId group (group ++ "." ++ id) = id := by
  have hstrip : Text.stripPrefix? (group ++ ".") (group ++ "." ++ id) = some id := by
    have hrest : (group ++ ".").toList.isPrefixOf? (group ++ "." ++ id).toList = some id.toList :=
      List.isPrefixOf?_eq_some_iff_append_eq.mpr String.toList_append.symm
    rw [Text.stripPrefix?, hrest, Option.map_some, String.ofList_toList]
  rw [plainId, hstrip, Option.getD_some]

/-- All readers take the plain id of a member. -/
theorem readAs_plainId (group : String) (member : Field) :
    ReadAs group member (plainId group member.id) where
  compiled validators owner members s i h hi := by
    obtain ⟨compiled, hcompiled, rfl⟩ := compileGroup_eq_ok h
    obtain ⟨m, hm, hmember⟩ := getElem?_mapM hcompiled hi
    obtain ⟨c, -, rfl⟩ := map_eq_ok.mp hmember
    exact ⟨_, hm, rfl, rfl⟩
  started members context ms i h hi := by
    rw [groupValue_eq] at h
    split at h
    · obtain ⟨written, hwritten, heq⟩ := map_eq_ok.mp h
      cases heq
      obtain ⟨entry, hentry, hmember⟩ := getElem?_mapM hwritten hi
      obtain ⟨v, hv, rfl⟩ := map_eq_ok.mp hmember
      exact ⟨written, v, rfl, length_entries hwritten, hv, hentry⟩
    · cases h
  seen held i v h := by
    rw [Scope.plainValues, List.getElem?_map, h]
    rfl

/-- A field that is taken over is read under its own id. -/
theorem readAs_intoGroup (blockId : String) (f : Field) :
    ReadAs (f.group?.getD blockId) (Repeatable.intoGroup blockId f) f.id := by
  have hread := readAs_plainId (f.group?.getD blockId) (Repeatable.intoGroup blockId f)
  have hid : plainId (f.group?.getD blockId) (Repeatable.intoGroup blockId f).id = f.id :=
    plainId_namespaced _ _
  rwa [hid] at hread

/-! ## The members of a group -/

/-- Whether a field becomes a member of a group where a block with this id takes it over. -/
def joins (blockId group : String) (f : Field) : Bool :=
  !f.kind.isAction && f.group?.getD blockId == group

/-- The ids that the members of a group have in the templates of a block, in order. -/
def templateIds (b : Block) (ts : List Block) (group : String) : List String :=
  ((ts.flatMap Block.fields).filter (joins b.id group)).map Field.id

section Members

variable {group : String} {b : Block}

theorem memberOf?_intoGroup (hgroup : group ≠ "") (blockId : String) (f : Field) :
    (Repeatable.intoGroup blockId f).memberOf? = some group ↔ joins blockId group f = true := by
  have hmember : (Repeatable.intoGroup blockId f).memberOf? =
      if f.kind.isAction then none else nonEmpty? (some (f.group?.getD blockId)) := rfl
  rw [hmember, joins]
  cases f.kind.isAction with
  | true => simp
  | false =>
      have hgiven : nonEmpty? (some (f.group?.getD blockId)) = some group ↔
          f.group?.getD blockId = group := by
        rw [nonEmpty?, Option.filter_eq_some_iff, Option.some.injEq]
        exact and_iff_left_of_imp fun _ => by simpa using hgroup
      simpa using hgiven

/-- What a repeatable block takes over into a group are the fields that join it. -/
theorem membersOf_takenOver (hgroup : group ≠ "") (hrep : b.repeatable = true)
    (ts : List Block) : membersOf (Repeatable.takenOver b ts) group =
      ((ts.flatMap Block.fields).filter (joins b.id group)).map (Repeatable.intoGroup b.id) := by
  unfold membersOf Repeatable.takenOver
  rw [if_pos hrep, List.filter_map]
  congr 2
  funext f
  rw [Function.comp_apply, Bool.eq_iff_iff, decide_eq_true_iff]
  exact memberOf?_intoGroup hgroup b.id f

theorem membersOf_append (fields more : List Field) :
    membersOf (fields ++ more) group = membersOf fields group ++ membersOf more group :=
  List.filter_append ..

theorem membersOf_eq_nil {fields : List Field} (h : ∀ f ∈ fields, f.memberOf? ≠ some group) :
    membersOf fields group = [] := by
  refine List.filter_eq_nil_iff.mpr fun f hf => ?_
  rw [decide_eq_true_iff]
  exact h f hf

/-- A group that has members in one block only has those of that block. -/
theorem membersOf_flatMap {blocks : List Block} (hnd : (blocks.map Block.id).Nodup)
    (hb : b ∈ blocks)
    (honly : ∀ b' ∈ blocks, ∀ f ∈ b'.fields, f.memberOf? = some group → b'.id = b.id) :
    membersOf (blocks.flatMap Block.fields) group = membersOf b.fields group := by
  induction blocks with
  | nil => exact absurd hb List.not_mem_nil
  | cons first rest ih =>
      obtain ⟨hnew, hnd⟩ := List.nodup_cons.mp hnd
      obtain ⟨hfirst, hrest⟩ := List.forall_mem_cons.mp honly
      rw [List.flatMap_cons, membersOf_append]
      by_cases hid : first.id = b.id
      · -- the others have other ids, and so no members
        have hnone : membersOf (rest.flatMap Block.fields) group = [] := by
          refine membersOf_eq_nil fun f hf hmember => ?_
          obtain ⟨b', hb', hf⟩ := List.mem_flatMap.mp hf
          exact hnew (hid.trans (hrest b' hb' f hf hmember).symm ▸ List.mem_map_of_mem hb')
        obtain rfl : b = first := by
          rcases List.mem_cons.mp hb with heq | hmem
          · exact heq
          · exact absurd (List.mem_map_of_mem hmem) (hid ▸ hnew)
        rw [hnone, List.append_nil]
      · have hnone : membersOf first.fields group = [] :=
          membersOf_eq_nil fun f hf hmember => hid (hfirst f hf hmember)
        have hmem : b ∈ rest := by
          rcases List.mem_cons.mp hb with heq | hmem
          · exact absurd (congrArg Block.id heq.symm) hid
          · exact hmem
        rw [hnone, List.nil_append, ih hnd hmem hrest]

/-- Members that were taken over are read under the ids that they had. -/
theorem plainIds_takenOver (blockId : String) {fields : List Field}
    (h : ∀ f ∈ fields, joins blockId group f = true) :
    ((fields.map (Repeatable.intoGroup blockId)).map fun m => plainId group m.id) =
      fields.map Field.id := by
  rw [List.map_map]
  refine List.map_congr_left fun f hf => ?_
  have hgroup : f.group?.getD blockId = group := by
    simpa using (Bool.and_eq_true_iff.mp (h f hf)).2
  show plainId group (f.group?.getD blockId ++ "." ++ f.id) = f.id
  rw [hgroup, plainId_namespaced]

end Members

/-! ## The groups of a resolved form -/

/-- A group of a resolved form is hosted by a block that was repeatable and took it over: its
members in the rendered form are all in that block, and none of them is a field of the block's own.
-/
structure Hosted (r : Form) (b : Block) (group : String) : Prop where
  named : group ≠ ""
  rendered : b.isRendered = true
  repeatable : b.repeatable = true
  only : ∀ b' ∈ r.renderBlocks, ∀ f ∈ b'.fields, f.memberOf? = some group → b'.id = b.id
  own : ∀ f ∈ b.fields, f.memberOf? ≠ some group

/-- A group of a form has members with these ids, in this order. -/
structure KeyedBy (r : Form) (group : String) (ids : List String) : Prop where
  /-- The schema has the group if there are members. -/
  present : ∀ (validators : Ordered CustomValidator) (schema : Schema),
    r.compile validators = .ok schema → (group ∈ Ordered.keys schema.groups ↔ ids ≠ [])
  /-- The members of its schema have the ids as their keys, and a map of them has each id once. -/
  schema : ∀ (validators : Ordered CustomValidator) (schema : Schema) (s : GroupSchema),
    r.compile validators = .ok schema → (group, s) ∈ schema.groups →
    s.members.map Member.key = ids
      ∧ Ordered.keys (Ordered.ofList (s.members.map fun m => (m.key, m.schema))) = ids.eraseDups
  /-- If it starts with an instance, the instance has each id once. -/
  started : ∀ (context values : Members), r.initialValues context = .ok values → ids ≠ [] →
    Ordered.get? values group = some (.list [])
      ∨ ∃ ms, Ordered.get? values group = some (.list [.object ms])
        ∧ Ordered.keys ms = ids.eraseDups

/-- What the members of a group are read as is what the group is keyed by. -/
theorem keyedBy_plainIds (r : Form) (group : String) : KeyedBy r group
    ((membersOf (r.renderBlocks.flatMap Block.fields) group).map fun m => plainId group m.id) where
  present validators schema h := by
    have hget := get?_groupedFields (r.renderBlocks.flatMap Block.fields) group
    rw [keys_groups h, Ne, List.map_eq_nil_iff]
    constructor
    · intro hmem hnone
      rw [if_pos hnone] at hget
      have habsent := has_eq_false_iff.mp (show Ordered.has _ group = false by
        rw [Ordered.has, hget, Option.isSome_none])
      exact habsent hmem
    · intro hsome
      rw [if_neg hsome] at hget
      exact List.mem_map_of_mem (mem_of_get? hget)
  schema validators schema s h hs := by
    obtain ⟨owner, hcompile⟩ := group_of_mem_schema h hs
    have hkeys := (compileGroup_members hcompile).1
    refine ⟨hkeys, ?_⟩
    rw [keys_ofList, ← hkeys, Ordered.keys, List.map_map]
    rfl
  started context values h hids := by
    have hsome : membersOf (r.renderBlocks.flatMap Block.fields) group ≠ [] :=
      fun hnone => hids (by rw [hnone, List.map_nil])
    have hget := get?_groupedFields (r.renderBlocks.flatMap Block.fields) group
    rw [if_neg hsome] at hget
    obtain ⟨v, hv, hvalue⟩ := get?_initialValues h (mem_of_get? hget)
    dsimp only at hv hvalue
    rw [groupValue_eq] at hv
    split at hv
    · obtain ⟨written, hwritten, rfl⟩ := map_eq_ok.mp hv
      refine .inr ⟨_, hvalue, ?_⟩
      rw [keys_ofList, keys_entries hwritten]
    · cases hv
      exact .inl hvalue

/-- A repeatable block is rendered when it was, since it is no template. -/
theorem isRendered_expand {bs : List Block} {ts : Block → List Block} {limit : Int} {b : Block}
    (hnd : (bs.map Block.id).Nodup) (hts : ∀ b ∈ bs, Repeatable.templates bs limit b = .ok (ts b))
    (hb : b ∈ bs) (hrep : b.repeatable = true) :
    (Repeatable.expand ((bs.flatMap ts).map Block.id) b (ts b)).isRendered = b.isRendered := by
  have hunused : ((bs.flatMap ts).map Block.id).contains b.id = false := by
    rw [Bool.eq_false_iff, Ne, List.contains_iff_mem, mem_used_iff hnd hts hb]
    rintro ⟨a, ha, hpop, hlead⟩
    have hchain := chained_of_templates hnd hts ha hpop
    have hnot := hchain.not_repeatable b ((hchain.mem_iff hnd).mpr hlead)
    rw [hrep] at hnot
    cases hnot
  unfold Block.isRendered Repeatable.expand
  rw [hunused, Bool.or_false]

/--
**Namespacing is undone exactly.**

Whatever the ids of a group and a field, the field as a member of the group is compiled,
initialised and seen under the id that it has by itself. So where a form is resolved, a group that
one repeatable block has taken over has as its keys the ids of the fields of the templates that
join it, in the order of the chain: buttons are left out, and fields of other groups.
-/
theorem namespacing_undone :
    (∀ (blockId : String) (f : Field),
        (Repeatable.intoGroup blockId f).id = f.group?.getD blockId ++ "." ++ f.id
          ∧ (Repeatable.intoGroup blockId f).repeatableGroupId = some (f.group?.getD blockId)
          ∧ ReadAs (f.group?.getD blockId) (Repeatable.intoGroup blockId f) f.id)
      ∧ ∀ {σ : Type} (p : Provider σ) (limit : Int) (d r : Form) (s t : σ),
        (d.blocks.map Block.id).Nodup → d.resolveFrom p limit s = (.ok r, t) →
        ∃ spliced, resolveSubForms p limit d.blocks s = (.ok spliced, t)
          ∧ ∀ b ∈ spliced, ∀ group, Hosted r b group →
            ∃ ts, Chained spliced b ts ∧ KeyedBy r group (templateIds b ts group) := by
  refine ⟨fun blockId f => ⟨rfl, rfl, readAs_intoGroup blockId f⟩, ?_⟩
  intro σ p limit d r s t hnd h
  obtain ⟨hfree, spliced, hsub, hrep⟩ := resolveFrom_cases h
  refine ⟨spliced, hsub, fun b hb group hhosted => ?_⟩
  have hnd := (resolveSubForms_spliced hnd hfree hsub).distinct
  obtain ⟨ts, hts, hout⟩ := resolveRepeatables_eq_ok_iff.mp hrep
  have hpop : b.popin = false := by
    have hrendered := hhosted.rendered
    rw [Block.isRendered, Bool.and_eq_true] at hrendered
    simpa using hrendered.1
  refine ⟨ts b, chained_of_templates hnd hts hb hpop, ?_⟩
  -- the block in the result, and what is in its group there
  let expanded := Repeatable.expand ((spliced.flatMap ts).map Block.id) b (ts b)
  have hmem : expanded ∈ r.renderBlocks := by
    refine List.mem_filter.mpr ⟨hout ▸ List.mem_map_of_mem hb, ?_⟩
    exact (isRendered_expand hnd hts hb hhosted.repeatable).trans hhosted.rendered
  have hids : (r.renderBlocks.map Block.id).Nodup := by
    have hall : (r.blocks.map Block.id).Nodup := by
      rw [hout, List.map_map]
      exact hnd
    exact hall.sublist (List.filter_sublist.map Block.id)
  have hmembers : membersOf (r.renderBlocks.flatMap Block.fields) group =
      (((ts b).flatMap Block.fields).filter (joins b.id group)).map
        (Repeatable.intoGroup b.id) := by
    have hown : membersOf b.fields group = [] := membersOf_eq_nil hhosted.own
    have hfields : expanded.fields = b.fields ++ Repeatable.takenOver b (ts b) := rfl
    rw [membersOf_flatMap hids hmem hhosted.only, hfields, membersOf_append, hown,
      List.nil_append, membersOf_takenOver hhosted.named hhosted.repeatable]
  have hkeyed := keyedBy_plainIds r group
  rwa [hmembers, plainIds_takenOver b.id fun f hf => (List.mem_filter.mp hf).2] at hkeyed

/-! ## A list named with a point -/

/-- A list named with a point. Its own field is no member of it. -/
def visitsBlock : Block := rowsOf "a.b" "visit" [textField "size"]

/-- A visit has a field whose id begins with the list's, one of another group, and a button. -/
def visitBlock : Block :=
  { fieldBlock "visit" [textField "a.b.x", groupField "y" "c",
      { textField "go" with kind := .button }] with
    repeatableBlockRef := some "base" }

/-- What all entries have: a field with a default, and one with an id of the visit's. -/
def visitBase : Block :=
  fieldBlock "base" [{ textField "x" with default := .scalar (.text "new") }, textField "a.b.x"]

def visitsForm : Form := ⟨none, none, "1.0", [visitsBlock, visitBlock, visitBase], none⟩

def visitsResolved : Form :=
  { visitsForm with
    blocks := [{ visitsBlock with
        fields := [textField "size", groupField "a.b.a.b.x" "a.b", groupField "c.y" "c",
          { groupField "a.b.go" "a.b" with kind := .button },
          { groupField "a.b.x" "a.b" with default := .scalar (.text "new") },
          groupField "a.b.a.b.x" "a.b"]
        repeatableBlockRef := none },
      { visitBlock with
        fields := visitBlock.fields ++ visitBase.fields
        repeatableBlockRef := none
        templateOnly := true },
      { visitBase with templateOnly := true }] }

theorem resolveFrom_visitsForm :
    visitsForm.resolveFrom (.nothing : Provider Unit) 50 () = (.ok visitsResolved, ()) := by
  have hchain : ∀ path : List String, path.contains "base" = false → (path.length : Int) ≤ 50 →
      Repeatable.chain visitsForm.blocks 50 path visitBlock = .ok [visitBase] := by
    intro path hpath hroom
    rw [chain_step (t := visitBase) rfl hpath hroom rfl, chain_end rfl]
    rfl
  have hvisits : Repeatable.templates visitsForm.blocks 50 visitsBlock =
      .ok [visitBlock, visitBase] := by
    show Repeatable.chain _ _ _ _ = _
    rw [chain_step (t := visitBlock) rfl rfl (by decide) rfl, hchain _ rfl (by decide)]
    rfl
  have hvisit : Repeatable.templates visitsForm.blocks 50 visitBlock = .ok [visitBase] :=
    hchain ["visit"] rfl (by decide)
  have hbase : Repeatable.templates visitsForm.blocks 50 visitBase = .ok [] :=
    templates_of_resolved _ _ rfl
  have hrep : resolveRepeatables 50 visitsForm.blocks = .ok visitsResolved.blocks := by
    rw [resolveRepeatables]
    show (List.mapM (Repeatable.templates visitsForm.blocks 50)
      [visitsBlock, visitBlock, visitBase] >>= _) = _
    simp only [List.mapM_cons, List.mapM_nil]
    rw [hvisits, hvisit, hbase]
    rfl
  exact resolveFrom_eq_ok (by decide) rfl hrep

theorem hosted_visits : Hosted visitsResolved visitsBlock "a.b" where
  named := by decide
  rendered := rfl
  repeatable := rfl
  only := by decide
  own := by decide

/-- The two fields with one id are two members, with one key in an instance. -/
theorem namespacing_undone_visits :
    visitsForm.resolveFrom (.nothing : Provider Unit) 50 () = (.ok visitsResolved, ())
      ∧ Hosted visitsResolved visitsBlock "a.b"
      ∧ KeyedBy visitsResolved "a.b" ["a.b.x", "x", "a.b.x"]
      ∧ visitsResolved.initialValues [] =
        .ok [("size", .str ""), ("a.b", .list [.object [("a.b.x", .str ""), ("x", .str "new")]]),
          ("c", .list [])] := by
  obtain ⟨spliced, hsub, hgroups⟩ :=
    namespacing_undone.2 _ _ _ _ _ _ (by decide) resolveFrom_visitsForm
  have hspliced : resolveSubForms (.nothing : Provider Unit) 50 visitsForm.blocks () =
      (.ok visitsForm.blocks, ()) := rfl
  rw [hspliced] at hsub
  cases hsub
  obtain ⟨ts, hchained, hkeyed⟩ := hgroups visitsBlock (by decide) "a.b" hosted_visits
  -- there is only one chain from the list
  have hchain : Chained visitsForm.blocks visitsBlock [visitBlock, visitBase] :=
    .step ⟨by decide, rfl⟩ rfl (.step ⟨by decide, rfl⟩ rfl (.stop rfl))
  obtain rfl := hchained.unique (by decide) hchain
  exact ⟨resolveFrom_visitsForm, hosted_visits, hkeyed, by rfl⟩

end Formwork.Proofs
