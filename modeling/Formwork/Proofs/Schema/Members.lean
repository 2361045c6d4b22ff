import Formwork.Proofs.Schema.Cardinality
import Mathlib.Data.List.Forall2
import Mathlib.Data.List.Nodup

/-!
# The members of a group

An instance of a group is an object, and each member of the group is validated by what the
object has under the member's key. What is reported is a table, instance by instance and
member by member (`cells`): the chain of the member says what is wrong with the value, at the
path that the group, the index and the key spell out.

The names of places (`field_0`, `field_1`, …) get in the way. A member that is missing is read
from the name of its place, and if some member has that name as its key, the issue is reported
there. So the table is right for instances in which no place name stands in for a key
(`Unaliased`), and wrong otherwise (`place_stands_in`).
-/

namespace Formwork.Proofs

open Formwork

/-- The path of what a member of an instance is told. -/
def memberPath (group : String) (index : Nat) (key : String) : String :=
  ".".intercalate [group, toString index, key]

/-- A member of an instance. -/
structure Cell where
  index : Nat
  values : Members
  member : Member

def Cell.path (group : String) (c : Cell) : String := memberPath group c.index c.member.key

/-- What the member's chain says of the instance's entry under the member's key. -/
def Cell.issues (group : String) (c : Cell) : Except RangeFault (List Issue) :=
  Schema.fieldIssues (c.path group) c.member.schema
    ((Ordered.get? c.values c.member.key).getD .null)

/-- The members of one instance. -/
def row (members : List Member) (index : Nat) (ms : Members) : List Cell :=
  members.map fun m => ⟨index, ms, m⟩

/-- The members of all instances. -/
def cells (members : List Member) (instances : List Members) : List Cell :=
  instances.zipIdx.flatMap fun e => row members e.2 e.1

/-- The place name of a member that an instance lacks is neither an entry of the instance nor
another member's key. -/
def Unaliased (members : List Member) (ms : Members) : Prop :=
  ∀ e ∈ members.zipIdx, Ordered.get? ms e.1.key = none →
    e.1.key = GroupSchema.placeKey e.2
      ∨ (Ordered.get? ms (GroupSchema.placeKey e.2) = none
        ∧ ∀ m ∈ members, m.key ≠ GroupSchema.placeKey e.2)

instance (members : List Member) (ms : Members) : Decidable (Unaliased members ms) :=
  inferInstanceAs (Decidable (∀ e ∈ members.zipIdx, _ → _))

/-- What a group reads of two instances is the same. -/
structure ReadAlike (members : List Member) (ms ms' : Members) : Prop where
  keys : ∀ m ∈ members, Ordered.get? ms m.key = Ordered.get? ms' m.key
  places : ∀ place < members.length,
    Ordered.get? ms (GroupSchema.placeKey place) = Ordered.get? ms' (GroupSchema.placeKey place)

/-! ## One member -/

section OneMember

variable {members : List Member} {ms : Members} {place : Nat} {m : Member} {e : Member × Nat}

theorem read_of_entry {key : String} {v : Value} (h : Ordered.get? ms key = some v) :
    GroupSchema.read place key ms = (key, v) := by
  rw [GroupSchema.read, h]

theorem read_of_missing {key : String} (h : Ordered.get? ms key = none) :
    GroupSchema.read place key ms =
      (GroupSchema.placeKey place,
        (Ordered.get? ms (GroupSchema.placeKey place)).getD .null) := by
  rw [GroupSchema.read, h]

/-- A key of a member stands for itself. -/
theorem reportedKey_of_mem (hm : m ∈ members) (key : String) :
    GroupSchema.reportedKey members place key m.key = m.key := by
  have hany : members.any (fun m' => m'.key == m.key) = true :=
    List.any_eq_true.mpr ⟨m, hm, beq_self_eq_true _⟩
  exact if_pos hany

/-- The name of a place stands for the member there, when it is no key. -/
theorem reportedKey_place (hfree : ∀ m' ∈ members, m'.key ≠ GroupSchema.placeKey place)
    (key : String) :
    GroupSchema.reportedKey members place key (GroupSchema.placeKey place) = key := by
  have hany : members.any (fun m' => m'.key == GroupSchema.placeKey place) = false := by
    simpa using hfree
  rw [GroupSchema.reportedKey, hany]
  simp

/-- What is read for a member is the entry under its key, and it is reported there. -/
theorem read_of_unaliased (h : Unaliased members ms) (he : e ∈ members.zipIdx) :
    (GroupSchema.read e.2 e.1.key ms).2 = (Ordered.get? ms e.1.key).getD .null
      ∧ GroupSchema.reportedKey members e.2 e.1.key (GroupSchema.read e.2 e.1.key ms).1
          = e.1.key := by
  have hmem : e.1 ∈ members := List.mem_of_getElem? (List.mem_zipIdx_iff_getElem?.mp he)
  cases hget : Ordered.get? ms e.1.key with
  | some v =>
      rw [read_of_entry hget]
      exact ⟨rfl, reportedKey_of_mem hmem _⟩
  | none =>
      rw [read_of_missing hget]
      rcases h e he hget with hkey | ⟨habsent, hfree⟩
      · -- the member's key is the name of its own place
        rw [← hkey, hget]
        exact ⟨rfl, reportedKey_of_mem hmem _⟩
      · rw [habsent]
        exact ⟨rfl, reportedKey_place hfree _⟩

theorem read_congr {ms' : Members} (h : ReadAlike members ms ms') (he : e ∈ members.zipIdx) :
    GroupSchema.read e.2 e.1.key ms = GroupSchema.read e.2 e.1.key ms' := by
  have hm : members[e.2]? = some e.1 := List.mem_zipIdx_iff_getElem?.mp he
  have hplace : e.2 < members.length := (List.getElem?_eq_some_iff.mp hm).1
  rw [GroupSchema.read, GroupSchema.read, h.keys e.1 (List.mem_of_getElem? hm),
    h.places e.2 hplace]

end OneMember

/-! ## One instance, and all -/

/-- A fault of the group as an issue. -/
def told (group : String) (f : GroupFault) : Issue :=
  ⟨".".intercalate (group :: f.path), f.rejection.message, f.rejection.code⟩

/-- A fault of an instance as one of the group. -/
def GroupFault.under (index : Nat) (f : GroupFault) : GroupFault :=
  { f with path := toString index :: f.path }

section Table

variable {s : GroupSchema} {group : String} {index : Nat} {all members : List Member} {ms : Members}

theorem memberFaults_told {place : Nat}
    (hread : ∀ e ∈ members.zipIdx place,
      (GroupSchema.read e.2 e.1.key ms).2 = (Ordered.get? ms e.1.key).getD .null
        ∧ GroupSchema.reportedKey all e.2 e.1.key (GroupSchema.read e.2 e.1.key ms).1
            = e.1.key) :
    (GroupSchema.memberFaults all ms place members).map
        (List.map fun f => told group (GroupFault.under index f))
      = gather (Cell.issues group) (row members index ms) := by
  induction members generalizing place with
  | nil => rfl
  | cons m rest ih =>
      rw [List.zipIdx_cons, List.forall_mem_cons] at hread
      obtain ⟨⟨hvalue, hkey⟩, hothers⟩ := hread
      have hrest := ih hothers
      cases hr : GroupSchema.read place m.key ms with
      | mk reported v =>
          rw [hr] at hvalue hkey
          dsimp only at hvalue hkey
          have hcell : Cell.issues group ⟨index, ms, m⟩ =
              Schema.fieldIssues (memberPath group index m.key) m.schema v := by
            rw [hvalue]
            rfl
          show _ = gather (Cell.issues group) (⟨index, ms, m⟩ :: row rest index ms)
          rw [gather_cons, hcell, ← hrest, GroupSchema.memberFaults, hr, Schema.fieldIssues]
          dsimp only
          rw [hkey]
          cases m.schema.validate v with
          | error e => rfl
          | ok answer =>
              cases answer with
              | ok w => cases GroupSchema.memberFaults all ms (place + 1) rest <;> rfl
              | error r => cases GroupSchema.memberFaults all ms (place + 1) rest <;> rfl

theorem itemFaults_told {instances : List Members} (h : ∀ ms ∈ instances, Unaliased s.members ms) :
    (s.itemFaults index (instances.map .object)).map (List.map (told group)) =
      gather (Cell.issues group)
        ((instances.zipIdx index).flatMap fun e => row s.members e.2 e.1) := by
  induction instances generalizing index with
  | nil => rfl
  | cons ms rest ih =>
      have hrest : (s.itemFaults (index + 1) (rest.map .object)).map (List.map (told group)) =
          gather (Cell.issues group)
            ((rest.zipIdx (index + 1)).flatMap fun e => row s.members e.2 e.1) :=
        ih fun ms' hms' => h ms' (List.mem_cons_of_mem _ hms')
      have hrow : (GroupSchema.memberFaults s.members ms 0 s.members).map
          (List.map fun f => told group (GroupFault.under index f)) =
            gather (Cell.issues group) (row s.members index ms) :=
        memberFaults_told fun _ he => read_of_unaliased (h ms (List.mem_cons_self ..)) he
      rw [List.zipIdx_cons, List.flatMap_cons, gather_append, ← hrow, ← hrest, List.map_cons,
        GroupSchema.itemFaults, GroupSchema.instanceFaults]
      cases GroupSchema.memberFaults s.members ms 0 s.members with
      | error e => rfl
      | ok faults =>
          cases s.itemFaults (index + 1) (rest.map .object) with
          | error e => rfl
          | ok more => simp [bind, Except.bind, Except.map, told, GroupFault.under]

/-- Of a list within the bounds only the instances are told of. -/
theorem faults_of_fits {items : List Value} (hlong : s.tooLong? items.length = none)
    (hshort : s.tooShort? items.length = none) :
    s.faults (.list items) = s.itemFaults 0 items := by
  simp only [GroupSchema.faults, examined_of_fits hlong, hlong, hshort]
  cases s.itemFaults 0 items with
  | error e => rfl
  | ok found => cases found <;> rfl

/-- **The report is the table**, for a list within the bounds. -/
theorem issues_eq_gather {b : Block} (hb : BoundedBy s group b) {instances : List Members}
    (hsize : Admits b instances.length) (h : ∀ ms ∈ instances, Unaliased s.members ms) :
    s.issues (.list (instances.map .object)) =
      gather (Cell.issues group) (cells s.members instances) := by
  obtain ⟨hlong, hshort⟩ := hb.fits_iff.mpr hsize
  have hlength : (instances.map Value.object).length = instances.length := List.length_map ..
  rw [← hlength] at hlong hshort
  rw [issues_of_instances rfl, faults_of_fits hlong hshort, hb.id]
  exact itemFaults_told h

end Table

/-! ## Paths -/

theorem toList_memberPath (group : String) (index : Nat) (key : String) :
    (memberPath group index key).toList =
      group.toList ++ '.' :: (Nat.toDigits 10 index ++ '.' :: key.toList) := by
  have hpath : memberPath group index key = group ++ "." ++ toString index ++ "." ++ key := rfl
  rw [hpath]
  simp [Nat.toString_eq_repr, Nat.toList_repr]

/-- What stands before the first dot of an index and a key is the index. -/
theorem takeWhile_index (index : Nat) (rest : List Char) :
    (Nat.toDigits 10 index ++ '.' :: rest).takeWhile (· != '.') = Nat.toDigits 10 index := by
  have hdigits : ∀ c ∈ Nat.toDigits 10 index, (c != '.') = true := by
    intro c hc
    have hdigit : c.isDigit = true := Nat.isDigit_of_mem_toDigits (by omega) (by omega) hc
    have hne : c ≠ '.' := by
      rintro rfl
      exact absurd hdigit (by decide)
    simpa using hne
  rw [List.takeWhile_append_of_pos hdigits]
  simp

/-- The path tells the member of an instance apart from all others of the group. -/
theorem memberPath_inj {group : String} {i j : Nat} {key key' : String} :
    memberPath group i key = memberPath group j key' ↔ i = j ∧ key = key' := by
  constructor
  · intro h
    have hlist := congrArg String.toList h
    rw [toList_memberPath, toList_memberPath, List.append_cancel_left_eq] at hlist
    have htail := (List.cons.inj hlist).2
    have hindex : Nat.toDigits 10 i = Nat.toDigits 10 j := by
      rw [← takeWhile_index i key.toList, htail, takeWhile_index]
    rw [hindex, List.append_cancel_left_eq] at htail
    refine ⟨?_, String.toList_inj.mp (List.cons.inj htail).2⟩
    calc
      i = Nat.ofDigitChars 10 (Nat.toDigits 10 i) 0 := Nat.ofDigitChars_ten_toDigits.symm
      _ = Nat.ofDigitChars 10 (Nat.toDigits 10 j) 0 := by rw [hindex]
      _ = j := Nat.ofDigitChars_ten_toDigits
  · rintro ⟨rfl, rfl⟩
    rfl

theorem mem_cells {members : List Member} {instances : List Members} {c : Cell} :
    c ∈ cells members instances ↔ instances[c.index]? = some c.values ∧ c.member ∈ members := by
  simp only [cells, row, List.mem_flatMap, List.mem_map]
  constructor
  · rintro ⟨⟨ms, i⟩, he, m, hm, rfl⟩
    exact ⟨List.mem_zipIdx_iff_getElem?.mp he, hm⟩
  · rintro ⟨hms, hm⟩
    exact ⟨(c.values, c.index), List.mem_zipIdx_iff_getElem?.mpr hms, c.member, hm, rfl⟩

/-- Members with different keys have different paths. -/
theorem nodup_paths {group : String} {members : List Member} {instances : List Members}
    (hkeys : (members.map Member.key).Nodup) :
    ((cells members instances).map (Cell.path group)).Nodup := by
  rw [cells, List.map_flatMap, List.nodup_flatMap]
  constructor
  · rintro ⟨ms, i⟩ -
    have hrow : (row members i ms).map (Cell.path group) =
        (members.map Member.key).map (memberPath group i) := by
      simp only [row, List.map_map]
      rfl
    rw [hrow]
    exact hkeys.map fun _ _ h => (memberPath_inj.mp h).2
  · have hindex : instances.zipIdx.Pairwise fun e e' => e.2 ≠ e'.2 := by
      have hnd : (instances.zipIdx.map Prod.snd).Nodup := by
        rw [List.zipIdx_map_snd]
        exact List.nodup_range'
      rwa [List.Nodup, List.pairwise_map] at hnd
    refine hindex.imp fun {e e'} hne p hp hp' => ?_
    simp only [row, List.map_map, List.mem_map] at hp hp'
    obtain ⟨m, -, rfl⟩ := hp
    obtain ⟨m', -, heq⟩ := hp'
    exact hne (memberPath_inj.mp heq).1.symm

/-- What a cell is told bears its path. -/
theorem path_of_mem_issues {group : String} {c : Cell} {issues : List Issue} {i : Issue}
    (h : c.issues group = .ok issues) (hi : i ∈ issues) : i.path = c.path group := by
  obtain ⟨answer, -, rfl⟩ := map_eq_ok.mp h
  cases answer with
  | ok w => exact absurd hi List.not_mem_nil
  | error r => rw [List.mem_singleton.mp hi]

/-! ## The compiled members -/

/-- Each member has the plain id of its field and the field's chain. -/
theorem compileGroup_members {validators : Ordered CustomValidator} {owner : Block}
    {group : String} {fields : List Field} {s : GroupSchema}
    (h : compileGroup validators owner group fields = .ok s) :
    s.members.map Member.key = fields.map (fun f => plainId group f.id)
      ∧ ∀ f ∈ fields, ∃ c, f.compile validators = .ok c
        ∧ ⟨plainId group f.id, { c with id := plainId group f.id }⟩ ∈ s.members := by
  obtain ⟨members, hmembers, rfl⟩ := compileGroup_eq_ok h
  constructor
  · refine map_eq_of_mapM (fun f m hm => ?_) hmembers
    obtain ⟨c, -, rfl⟩ := map_eq_ok.mp hm
    rfl
  · intro f hf
    obtain ⟨m, hmem, hm⟩ := exists_mem_of_mapM hmembers hf
    obtain ⟨c, hc, rfl⟩ := map_eq_ok.mp hm
    exact ⟨c, hc, hmem⟩

/-! ## Other entries -/

section Others

variable {s : GroupSchema} {instances instances' : List Members}

theorem memberFaults_congr {all : List Member} {ms ms' : Members} {place : Nat}
    {members : List Member}
    (h : ∀ e ∈ members.zipIdx place,
      GroupSchema.read e.2 e.1.key ms = GroupSchema.read e.2 e.1.key ms') :
    GroupSchema.memberFaults all ms place members =
      GroupSchema.memberFaults all ms' place members := by
  induction members generalizing place with
  | nil => rfl
  | cons m rest ih =>
      rw [List.zipIdx_cons, List.forall_mem_cons] at h
      obtain ⟨hfirst, hothers⟩ := h
      have hread : GroupSchema.read place m.key ms = GroupSchema.read place m.key ms' := hfirst
      rw [GroupSchema.memberFaults, GroupSchema.memberFaults, hread, ih hothers]

theorem itemFaults_congr (h : List.Forall₂ (ReadAlike s.members) instances instances')
    (index : Nat) :
    s.itemFaults index (instances.map .object) = s.itemFaults index (instances'.map .object) := by
  induction h generalizing index with
  | nil => rfl
  | @cons ms ms' rest rest' hms hrest ih =>
      have hhead : s.instanceFaults (.object ms) = s.instanceFaults (.object ms') :=
        memberFaults_congr fun _ he => read_congr hms he
      rw [List.map_cons, List.map_cons, GroupSchema.itemFaults, GroupSchema.itemFaults, hhead,
        ih (index + 1)]

/-- **Only entries under keys of members and names of places are read.** -/
theorem issues_congr (h : List.Forall₂ (ReadAlike s.members) instances instances') :
    s.issues (.list (instances.map .object)) = s.issues (.list (instances'.map .object)) := by
  have hlength : (instances.map Value.object).length = (instances'.map Value.object).length := by
    rw [List.length_map, List.length_map, h.length_eq]
  have hexamined : s.itemFaults 0 (s.examined (instances.map .object)) =
      s.itemFaults 0 (s.examined (instances'.map .object)) := by
    unfold GroupSchema.examined
    cases s.most with
    | none => exact itemFaults_congr h 0
    | some most =>
        dsimp only
        rw [← List.map_take, ← List.map_take]
        exact itemFaults_congr (List.forall₂_take _ h) 0
  rw [issues_of_instances rfl, issues_of_instances rfl, GroupSchema.faults, GroupSchema.faults,
    hexamined, hlength]

end Others

/--
**Members are validated by their own keys.**

For a list of instances within the bounds in which no place name stands in for a key: the report is
that of the members' chains, instance by instance and member by member; where keys are distinct,
what is reported at the path of a member is what the chain of its field says of the instance's entry
under its key. For any instances whatsoever, entries under other names than keys of members and
names of places make no difference.
-/
theorem members_by_own_key {validators : Ordered CustomValidator} {owner : Block} {group : String}
    {fields : List Field} {s : GroupSchema}
    (h : compileGroup validators owner group fields = .ok s)
    (hkeys : (fields.map fun f => plainId group f.id).Nodup) :
    (∀ instances : List Members, Admits owner instances.length →
        (∀ ms ∈ instances, Unaliased s.members ms) →
        s.issues (.list (instances.map .object)) =
            gather (Cell.issues group) (cells s.members instances)
          ∧ ∀ issues, s.issues (.list (instances.map .object)) = .ok issues →
              ∀ (i : Nat) (ms : Members), instances[i]? = some ms → ∀ f ∈ fields,
                ∃ c, f.compile validators = .ok c
                  ∧ Schema.fieldIssues (memberPath group i (plainId group f.id)) c
                      ((Ordered.get? ms (plainId group f.id)).getD .null) =
                    .ok (issues.filter fun issue =>
                      issue.path = memberPath group i (plainId group f.id)))
      ∧ ∀ instances instances' : List Members,
          List.Forall₂ (ReadAlike s.members) instances instances' →
          s.issues (.list (instances.map .object)) =
            s.issues (.list (instances'.map .object)) := by
  obtain ⟨hmembers, hchain⟩ := compileGroup_members h
  have hb := compileGroup_boundedBy h
  refine ⟨fun instances hsize hplain => ?_, fun _ _ hall => issues_congr hall⟩
  have htable := issues_eq_gather hb hsize hplain
  refine ⟨htable, fun issues hissues i ms hms f hf => ?_⟩
  obtain ⟨c, hc, hmem⟩ := hchain f hf
  rw [htable] at hissues
  refine ⟨c, hc, filter_gather (nodup_paths (hmembers ▸ hkeys))
    (fun c' _ own hown issue hissue => path_of_mem_issues hown hissue) hissues
    (x := ⟨i, ms, ⟨plainId group f.id, { c with id := plainId group f.id }⟩⟩) ?_⟩
  exact mem_cells.mpr ⟨hms, hmem⟩

/-! ## A group of two texts -/

/-- A text field of the group `g`. -/
def memberField (key : String) (validation : List ValidationRule) : Field :=
  { textField ("g." ++ key) with repeatableGroupId := some "g", validation := validation }

/-- A text that has to be filled in. -/
def neededField (key : String) : Field := memberField key [⟨"required", none, "Needed"⟩]

def neededMember (key : String) : Member :=
  ⟨key, ⟨key, .text, [⟨.required, .required, "Needed"⟩]⟩⟩

/-- A key that is the name of its member's own place does no harm, nor does an entry that belongs to
no member. -/
theorem members_by_own_key_first :
    ∃ s : GroupSchema,
      compileGroup [] (fieldBlock "main" []) "g" [neededField "field_0", neededField "b"] = .ok s
        ∧ ([neededField "field_0", neededField "b"].map fun f => plainId "g" f.id).Nodup
        ∧ s.issues (.list [.object [("b", .str "x")],
            .object [("field_0", .str "y"), ("note", .int 1)]]) =
          .ok [⟨"g.0.field_0", "Needed", "required"⟩, ⟨"g.1.b", "Needed", "required"⟩] := by
  have hcompile : compileGroup [] (fieldBlock "main" []) "g"
      [neededField "field_0", neededField "b"] =
        .ok ⟨"g", "main", none, none, [neededMember "field_0", neededMember "b"]⟩ := by rfl
  have hkeys : ([neededField "field_0", neededField "b"].map fun f => plainId "g" f.id).Nodup := by
    decide
  refine ⟨_, hcompile, hkeys, ?_⟩
  have hplain : ∀ ms ∈ [[("b", Value.str "x")], [("field_0", .str "y"), ("note", .int 1)]],
      Unaliased [neededMember "field_0", neededMember "b"] ms := by
    decide
  exact ((members_by_own_key hcompile hkeys).1 _ ⟨Nat.zero_le _, nofun⟩ hplain).1

/-- A member that is missing is read from the name of its place and reported at it, although another
member has that name as its key: an empty instance is told at the wrong path, and one that lacks the
text is accepted. -/
theorem place_stands_in :
    ∃ s : GroupSchema,
      compileGroup [] (fieldBlock "main" []) "g" [memberField "field_1" [], neededField "b"] = .ok s
        ∧ ([memberField "field_1" [], neededField "b"].map fun f => plainId "g" f.id).Nodup
        ∧ Admits (fieldBlock "main" []) 1
        ∧ Cell.issues "g" ⟨0, [], neededMember "b"⟩ = .ok [⟨"g.0.b", "Needed", "required"⟩]
        ∧ s.issues (.list [.object []]) = .ok [⟨"g.0.field_1", "Needed", "required"⟩]
        ∧ Cell.issues "g" ⟨0, [("field_1", .str "x")], neededMember "b"⟩ =
          .ok [⟨"g.0.b", "Needed", "required"⟩]
        ∧ s.issues (.list [.object [("field_1", .str "x")]]) = .ok [] := by
  refine ⟨⟨"g", "main", none, none, [⟨"field_1", ⟨"field_1", .text, []⟩⟩, neededMember "b"]⟩,
    by rfl, by decide, ⟨Nat.zero_le _, nofun⟩, by rfl, by rfl, by rfl, by rfl⟩

end Formwork.Proofs
