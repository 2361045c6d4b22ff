import Formwork.Proofs.Answer
import Formwork.Proofs.Document.RoundTrip
import Formwork.Proofs.Ordered
import Formwork.Values.Initial

/-!
# Initial values without declared nulls

A default that is declared as null is not the same as none: the field starts with null
where it would start with the empty value of its kind, and a group with such a member
starts with an instance. The wire form does not carry a declared null. So a field keeps
its initial value over the wire when null is its empty value anyway (`NullAgrees`), and a
group when that holds of its members and one of them has a default that is carried.

Initial values are entries of a map, each with a key and a value of its own. When the keys
are distinct the map is the list of the entries, and can be compared entry by entry.
-/

namespace Formwork.Proofs

open Formwork

/-! ## Entries -/

section Entries

variable {α ε ν : Type} {key : α → String} {value value' : α → Except ε ν} {xs : List α}
  {ys : List (String × ν)}

/-- The entries that elements make, each with a key and a value. -/
def entries (key : α → String) (value : α → Except ε ν) (xs : List α) :
    Except ε (List (String × ν)) :=
  xs.mapM fun x => (value x).map (Prod.mk (key x))

theorem entries_cons_eq_ok {x : α} : entries key value (x :: xs) = .ok ys ↔
    ∃ v rest, value x = .ok v ∧ entries key value xs = .ok rest ∧ ys = (key x, v) :: rest := by
  unfold entries
  rw [mapM_cons_eq_ok]
  constructor
  · rintro ⟨y, rest, hy, hxs, rfl⟩
    obtain ⟨v, hv, rfl⟩ := map_eq_ok.mp hy
    exact ⟨v, rest, hv, hxs, rfl⟩
  · rintro ⟨v, rest, hv, hxs, rfl⟩
    exact ⟨(key x, v), rest, map_eq_ok.mpr ⟨v, hv, rfl⟩, hxs, rfl⟩

theorem entries_congr (h : ∀ x ∈ xs, value' x = value x) :
    entries key value' xs = entries key value xs := by
  unfold entries
  induction xs with
  | nil => rfl
  | cons x xs ih =>
      rw [List.mapM_cons, List.mapM_cons, h x (List.mem_cons_self ..),
        ih fun y hy => h y (List.mem_cons_of_mem _ hy)]

theorem keys_entries (h : entries key value xs = .ok ys) : Ordered.keys ys = xs.map key := by
  induction xs generalizing ys with
  | nil => cases h; rfl
  | cons x xs ih =>
      obtain ⟨v, rest, -, hrest, rfl⟩ := entries_cons_eq_ok.mp h
      rw [Ordered.keys, List.map_cons, List.map_cons, ← ih hrest]
      rfl

/-- Where keys are distinct the entries are the map that they write. -/
theorem ofList_entries (hnd : (xs.map key).Nodup) (h : entries key value xs = .ok ys) :
    Ordered.ofList ys = ys :=
  ofList_of_nodup ((keys_entries h).symm ▸ hnd)

theorem ofList_entries_append {α' : Type} {key' : α' → String} {value' : α' → Except ε ν}
    {xs' : List α'} {ys' : List (String × ν)} (hnd : (xs.map key ++ xs'.map key').Nodup)
    (h : entries key value xs = .ok ys) (h' : entries key' value' xs' = .ok ys') :
    Ordered.ofList (ys ++ ys') = ys ++ ys' := by
  refine ofList_of_nodup ?_
  have hkeys : Ordered.keys (ys ++ ys') = Ordered.keys ys ++ Ordered.keys ys' := List.map_append
  rw [hkeys, keys_entries h, keys_entries h']
  exact hnd

theorem length_entries (h : entries key value xs = .ok ys) : ys.length = xs.length :=
  mapM_ok_length h

/-- Every element has a value when all make entries. -/
theorem value_of_entries (h : entries key value xs = .ok ys) {x : α} (hx : x ∈ xs) :
    ∃ v, value x = .ok v := by
  obtain ⟨y, -, hy⟩ := exists_mem_of_mapM h hx
  obtain ⟨v, hv, -⟩ := map_eq_ok.mp hy
  exact ⟨v, hv⟩

/-- Elements make the same entries when each has the same value. -/
theorem entries_eq_iff (h : entries key value xs = .ok ys) :
    entries key value' xs = .ok ys ↔ ∀ x ∈ xs, value' x = value x := by
  refine ⟨fun h' => ?_, fun heq => (entries_congr heq).trans h⟩
  induction xs generalizing ys with
  | nil => exact List.forall_mem_nil _
  | cons x xs ih =>
      obtain ⟨v, rest, hv, hrest, rfl⟩ := entries_cons_eq_ok.mp h
      obtain ⟨v', rest', hv', hrest', heq⟩ := entries_cons_eq_ok.mp h'
      cases heq
      exact List.forall_mem_cons.mpr ⟨hv'.trans hv.symm, ih hrest hrest'⟩

end Entries

/-! ## Fields -/

/-- If a field declares null, null is what it starts with otherwise as well. -/
def NullAgrees (f : Field) : Prop := f.default = .null → f.kind.emptyValue = .null

theorem initialValue_carried_iff (f : Field) (c : Members) :
    f.carried.initialValue c = f.initialValue c ↔ NullAgrees f := by
  unfold NullAgrees
  cases hd : f.default with
  | null =>
      have hcarried : f.carried.initialValue c = .ok f.kind.emptyValue := by
        unfold Field.initialValue Field.carried
        rw [hd]
        rfl
      have hown : f.initialValue c = .ok .null := by
        unfold Field.initialValue
        rw [hd]
        rfl
      rw [hcarried, hown, Except.ok.injEq]
      exact ⟨fun h _ => h, fun h => h rfl⟩
  | undeclared =>
      refine iff_of_true ?_ nofun
      unfold Field.initialValue Field.carried
      rw [hd]
      rfl
  | scalar s =>
      refine iff_of_true ?_ nofun
      unfold Field.initialValue Field.carried
      rw [hd]
      rfl

/-! ## Groups -/

/-- Null defaults of members are what the members start with otherwise, and are not alone. -/
def GroupAgrees (members : List Field) : Prop :=
  ∀ m ∈ members, m.default = .null →
    m.kind.emptyValue = .null ∧ ∃ m' ∈ members, ∃ s, m'.default = .scalar s

theorem groupValue_eq (g : String) (members : List Field) (c : Members) :
    Initial.groupValue g members c =
      if members.any fun m => m.default.isDeclared then
        (entries (fun m => plainId g m.id)
          (fun m : Field => m.initialValue (Scope.ofInstance c g 0 [])) members).map
            fun values => .list [.object (Ordered.ofList values)]
      else .ok (.list []) := by
  unfold Initial.groupValue entries
  simp only [← bind_ok_eq_map]

/-- Only scalars are still declared over the wire. -/
theorem isDeclared_carried {d : Default} : d.carried.isDeclared = true ↔ ∃ s, d = .scalar s := by
  cases d <;> simp [Default.carried, Default.isDeclared]

theorem groupValue_carried_eq (g : String) (members : List Field) (c : Members) :
    Initial.groupValue g (members.map Field.carried) c =
      if members.any fun m => m.default.carried.isDeclared then
        (entries (fun m => plainId g m.id)
          (fun m : Field => m.carried.initialValue (Scope.ofInstance c g 0 [])) members).map
            fun values => .list [.object (Ordered.ofList values)]
      else .ok (.list []) := by
  rw [groupValue_eq, List.any_map]
  unfold entries
  rw [List.mapM_map]
  rfl

/-- A group that agrees starts with the same value over the wire. -/
theorem groupValue_carried {members : List Field} (h : GroupAgrees members) (g : String)
    (c : Members) :
    Initial.groupValue g (members.map Field.carried) c = Initial.groupValue g members c := by
  have hdeclared : (members.any fun m => m.default.carried.isDeclared) =
      members.any fun m => m.default.isDeclared := by
    rw [Bool.eq_iff_iff, List.any_eq_true, List.any_eq_true]
    constructor
    · rintro ⟨m, hm, hscalar⟩
      obtain ⟨s, hs⟩ := isDeclared_carried.mp hscalar
      exact ⟨m, hm, by rw [hs]; rfl⟩
    · rintro ⟨m, hm, hdecl⟩
      cases hd : m.default with
      | undeclared => rw [hd] at hdecl; cases hdecl
      | null =>
          obtain ⟨-, m', hm', hscalar⟩ := h m hm hd
          exact ⟨m', hm', isDeclared_carried.mpr hscalar⟩
      | scalar s => exact ⟨m, hm, isDeclared_carried.mpr ⟨s, hd⟩⟩
  rw [groupValue_carried_eq, groupValue_eq, hdeclared,
    entries_congr fun m hm => (initialValue_carried_iff m _).mpr fun hnull => (h m hm hnull).1]

theorem groupValue_carried_iff {g : String} {members : List Field} {c : Members} {v : Value}
    (hnd : (members.map fun m => plainId g m.id).Nodup)
    (h : Initial.groupValue g members c = .ok v) :
    Initial.groupValue g (members.map Field.carried) c = .ok v ↔ GroupAgrees members := by
  refine ⟨fun h' m hm hnull => ?_, fun hagrees => (groupValue_carried hagrees g c).trans h⟩
  have hdeclared : (members.any fun m => m.default.isDeclared) = true :=
    List.any_eq_true.mpr ⟨m, hm, by rw [hnull]; rfl⟩
  rw [groupValue_eq, if_pos hdeclared] at h
  obtain ⟨values, hvalues, rfl⟩ := map_eq_ok.mp h
  rw [groupValue_carried_eq] at h'
  split at h'
  · rename_i hscalar
    obtain ⟨values', hvalues', heq⟩ := map_eq_ok.mp h'
    have hsame : values' = values := by
      simp only [Value.list.injEq, List.cons.injEq, Value.object.injEq, and_true] at heq
      rwa [ofList_entries hnd hvalues, ofList_entries hnd hvalues'] at heq
    rw [hsame] at hvalues'
    have hagrees := (initialValue_carried_iff m _).mp ((entries_eq_iff hvalues).mp hvalues' m hm)
    obtain ⟨m', hm', hdecl⟩ := List.any_eq_true.mp hscalar
    exact ⟨hagrees hnull, m', hm', isDeclared_carried.mp hdecl⟩
  · cases h'

/-! ## Forms -/

theorem ownFields_carried (fields : List Field) :
    ownFields (fields.map Field.carried) = (ownFields fields).map Field.carried := by
  unfold ownFields
  rw [List.filter_map]
  rfl

/-- A field joins the group that it is a member of, if it is one. -/
def joinGroup (groups : Ordered (List Field)) (f : Field) : Ordered (List Field) :=
  match f.memberOf? with
  | some g => Ordered.push groups g f
  | none => groups

/-- Groups with their members as the wire form carries them. -/
def carriedGroups (groups : Ordered (List Field)) : Ordered (List Field) :=
  groups.map fun e => (e.1, e.2.map Field.carried)

theorem joinGroup_carried (groups : Ordered (List Field)) (f : Field) :
    joinGroup (carriedGroups groups) f.carried = carriedGroups (joinGroup groups f) := by
  have hgroup : f.carried.memberOf? = f.memberOf? := rfl
  unfold joinGroup
  rw [hgroup]
  cases f.memberOf? with
  | none => rfl
  | some g =>
      have hmembers : (Ordered.get? (carriedGroups groups) g).getD [] ++ [f.carried] =
          (((Ordered.get? groups g).getD []) ++ [f]).map Field.carried := by
        rw [carriedGroups, get?_map]
        cases Ordered.get? groups g <;> simp
      show Ordered.insert (carriedGroups groups) g _ = _
      rw [hmembers]
      exact insert_map _ groups g _

theorem groupedFields_carried (fields : List Field) :
    groupedFields (fields.map Field.carried) = carriedGroups (groupedFields fields) := by
  have hjoin (fields : List Field) : groupedFields fields = fields.foldl joinGroup [] := rfl
  rw [hjoin, hjoin, List.foldl_map]
  exact @List.foldl_hom _ _ _ carriedGroups joinGroup (fun groups f => joinGroup groups f.carried)
    fields [] joinGroup_carried

/-- The null defaults of all fields that hold values agree. -/
structure DefaultsAgree (fields : List Field) : Prop where
  own : ∀ f ∈ ownFields fields, NullAgrees f
  grouped : ∀ e ∈ groupedFields fields, GroupAgrees e.2

/-- Fields have keys of their own among the values, and members have within their groups. -/
structure DistinctKeys (fields : List Field) : Prop where
  keys : ((ownFields fields).map Field.id ++ Ordered.keys (groupedFields fields)).Nodup
  members : ∀ e ∈ groupedFields fields, (e.2.map fun m => plainId e.1 m.id).Nodup

theorem initialValues_eq (fields : List Field) (c : Members) :
    initialValues fields c =
      (entries Field.id (fun f => f.initialValue c) (ownFields fields) >>= fun own =>
        (entries Prod.fst (fun e => Initial.groupValue e.1 e.2 c) (groupedFields fields)).map
          fun grouped => Ordered.ofList (own ++ grouped)) := by
  unfold initialValues entries
  simp only [← bind_ok_eq_map]

theorem initialValues_carried_eq (fields : List Field) (c : Members) :
    initialValues (fields.map Field.carried) c =
      (entries Field.id (fun f => f.carried.initialValue c) (ownFields fields) >>= fun own =>
        (entries Prod.fst (fun e => Initial.groupValue e.1 (e.2.map Field.carried) c)
          (groupedFields fields)).map fun grouped => Ordered.ofList (own ++ grouped)) := by
  rw [initialValues_eq, ownFields_carried, groupedFields_carried]
  unfold entries carriedGroups
  rw [List.mapM_map, List.mapM_map]
  rfl

/-- Fields that agree start with the same values over the wire. -/
theorem initialValues_carried {fields : List Field} (h : DefaultsAgree fields) (c : Members) :
    initialValues (fields.map Field.carried) c = initialValues fields c := by
  rw [initialValues_carried_eq, initialValues_eq,
    entries_congr fun f hf => (initialValue_carried_iff f c).mpr (h.own f hf),
    entries_congr fun e he => groupValue_carried (h.grouped e he) e.1 c]

/-- **With distinct keys, only fields that agree start with the same values over the wire.** -/
theorem initialValues_carried_iff {fields : List Field} (hnd : DistinctKeys fields) {c : Members}
    {values : Members} (h : initialValues fields c = .ok values) :
    initialValues (fields.map Field.carried) c = .ok values ↔ DefaultsAgree fields := by
  refine ⟨fun h' => ?_, fun hagree => (initialValues_carried hagree c).trans h⟩
  rw [initialValues_eq] at h
  rw [initialValues_carried_eq] at h'
  obtain ⟨own, hown, hrest⟩ := bind_eq_ok.mp h
  obtain ⟨grouped, hgrouped, rfl⟩ := map_eq_ok.mp hrest
  obtain ⟨own', hown', hrest'⟩ := bind_eq_ok.mp h'
  obtain ⟨grouped', hgrouped', heq⟩ := map_eq_ok.mp hrest'
  rw [ofList_entries_append hnd.keys hown hgrouped,
    ofList_entries_append hnd.keys hown' hgrouped'] at heq
  obtain ⟨rfl, rfl⟩ :=
    List.append_inj heq ((length_entries hown').trans (length_entries hown).symm)
  refine ⟨fun f hf => ?_, fun e he => ?_⟩
  · exact (initialValue_carried_iff f c).mp ((entries_eq_iff hown).mp hown' f hf)
  · obtain ⟨v, hv⟩ := value_of_entries hgrouped he
    exact (groupValue_carried_iff (hnd.members e he) hv).mp
      (((entries_eq_iff hgrouped).mp hgrouped' e he).trans hv)

end Formwork.Proofs
