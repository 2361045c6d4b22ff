import Formwork.Ordered

/-!
# Keys of ordered maps

A map is read by its keys and held as a list of entries. These are the facts that
connect the two: a key is absent when no entry has it, a new key is written at the end,
and where keys are distinct every entry is what its key reads.
-/

namespace Formwork.Proofs

open Formwork

variable {α : Type}

theorem has_eq_false_iff {m : Ordered α} {key : String} :
    Ordered.has m key = false ↔ key ∉ Ordered.keys m := by
  unfold Ordered.has Ordered.keys
  induction m with
  | nil => simp
  | cons entry rest ih =>
      obtain ⟨k, w⟩ := entry
      rw [Ordered.get?_cons]
      by_cases hk : key = k
      · simp [hk]
      · have hk' : (key == k) = false := by simpa using hk
        rw [hk', if_neg Bool.false_ne_true, ih]
        simp [hk]

theorem has_iff {m : Ordered α} {key : String} :
    Ordered.has m key = true ↔ key ∈ Ordered.keys m := by
  rw [← Decidable.not_iff_not, Bool.not_eq_true, has_eq_false_iff]

theorem get?_eq_none_iff {m : Ordered α} {key : String} :
    Ordered.get? m key = none ↔ key ∉ Ordered.keys m := by
  rw [← has_eq_false_iff, Ordered.has, Option.isSome_eq_false_iff, Option.isNone_iff_eq_none]

/-- A new key is written at the end. -/
theorem insert_of_absent {m : Ordered α} {key : String} (h : key ∉ Ordered.keys m) (v : α) :
    Ordered.insert m key v = m ++ [(key, v)] := by
  induction m with
  | nil => rfl
  | cons entry rest ih =>
      obtain ⟨k, w⟩ := entry
      have hk : (k == key) = false := by
        have : key ≠ k := fun heq => h (by simp [Ordered.keys, heq])
        simpa using fun heq : k = key => this heq.symm
      have hrest : key ∉ Ordered.keys rest := fun hmem => h (List.mem_cons_of_mem _ hmem)
      rw [Ordered.insert, hk, if_neg Bool.false_ne_true, ih hrest, List.cons_append]

/-- What stands first is read. -/
theorem get?_append (m n : Ordered α) (key : String) :
    Ordered.get? (m ++ n) key = (Ordered.get? m key).or (Ordered.get? n key) :=
  List.lookup_append

/-- What a key reads is an entry. -/
theorem mem_of_get? {m : Ordered α} {key : String} {v : α} (h : Ordered.get? m key = some v) :
    (key, v) ∈ m := by
  induction m with
  | nil => simp at h
  | cons entry rest ih =>
      obtain ⟨k, w⟩ := entry
      rw [Ordered.get?_cons] at h
      by_cases hk : key = k
      · subst hk
        simp only [beq_self_eq_true, if_true, Option.some.injEq] at h
        rw [h]
        exact List.mem_cons_self ..
      · have hk' : (key == k) = false := by simpa using hk
        rw [hk', if_neg Bool.false_ne_true] at h
        exact List.mem_cons_of_mem _ (ih h)

/-- Where keys are distinct, an entry is what its key reads. -/
theorem get?_of_mem {m : Ordered α} (hnd : (Ordered.keys m).Nodup) {entry : String × α}
    (h : entry ∈ m) : Ordered.get? m entry.1 = some entry.2 := by
  induction m with
  | nil => exact absurd h List.not_mem_nil
  | cons first rest ih =>
      obtain ⟨k, w⟩ := first
      obtain ⟨hnew, hrest⟩ := List.nodup_cons.mp hnd
      rw [Ordered.get?_cons]
      rcases List.mem_cons.mp h with rfl | hmem
      · rw [beq_self_eq_true, if_pos rfl]
      · have hne : entry.1 ≠ k := by
          rintro rfl
          exact hnew (List.mem_map.mpr ⟨entry, hmem, rfl⟩)
        rw [if_neg (by simpa using hne), ih hrest hmem]

theorem mem_insert_cases {m : Ordered α} {key : String} {v : α} {entry : String × α}
    (h : entry ∈ Ordered.insert m key v) : entry ∈ m ∨ entry = (key, v) := by
  induction m with
  | nil => exact .inr (List.mem_singleton.mp h)
  | cons first rest ih =>
      obtain ⟨k, w⟩ := first
      rw [Ordered.insert] at h
      split at h
      · rename_i hk
        rcases List.mem_cons.mp h with rfl | h
        · exact .inr (by rw [eq_of_beq hk])
        · exact .inl (List.mem_cons_of_mem _ h)
      · rcases List.mem_cons.mp h with rfl | h
        · exact .inl (List.mem_cons_self ..)
        · exact (ih h).imp_left (List.mem_cons_of_mem _)

/-- Writing keeps the keys, with a new one behind them. -/
theorem keys_of_insert (m : Ordered α) (key : String) (v : α) :
    Ordered.keys (Ordered.insert m key v) =
      if key ∈ Ordered.keys m then Ordered.keys m else Ordered.keys m ++ [key] := by
  induction m with
  | nil => rfl
  | cons first rest ih =>
      obtain ⟨k, w⟩ := first
      unfold Ordered.keys at ih ⊢
      rw [Ordered.insert]
      by_cases hk : k = key
      · simp [hk]
      · have hk' : key ≠ k := fun heq => hk heq.symm
        have hbeq : (k == key) = false := by simpa using hk
        rw [hbeq, if_neg Bool.false_ne_true, List.map_cons, List.map_cons, ih]
        split <;> simp_all

theorem mem_keys_insert {m : Ordered α} {key other : String} {v : α} :
    other ∈ Ordered.keys (Ordered.insert m key v) ↔ other ∈ Ordered.keys m ∨ other = key := by
  rw [keys_of_insert]
  split
  · rename_i hkey
    exact ⟨.inl, fun h => h.elim id fun heq => heq ▸ hkey⟩
  · rw [List.mem_append, List.mem_singleton]

theorem mem_keys_erase {m : Ordered α} {key other : String} :
    other ∈ Ordered.keys (Ordered.erase m key) ↔ other ∈ Ordered.keys m ∧ other ≠ key := by
  simp only [Ordered.keys, Ordered.erase, List.mem_map, List.mem_filter, bne_iff_ne]
  constructor
  · rintro ⟨e, ⟨he, hne⟩, rfl⟩
    exact ⟨⟨e, he, rfl⟩, hne⟩
  · rintro ⟨⟨e, he, rfl⟩, hne⟩
    exact ⟨e, ⟨he, hne⟩, rfl⟩

/-- There is nothing to remove under a key that is absent. -/
theorem erase_of_absent {m : Ordered α} {key : String} (h : key ∉ Ordered.keys m) :
    Ordered.erase m key = m := by
  refine List.filter_eq_self.mpr fun e he => bne_iff_ne.mpr ?_
  rintro rfl
  exact h (List.mem_map_of_mem he)

/-- Writing keeps keys distinct. -/
theorem nodup_keys_insert {m : Ordered α} (hnd : (Ordered.keys m).Nodup) (key : String) (v : α) :
    (Ordered.keys (Ordered.insert m key v)).Nodup := by
  rw [keys_of_insert]
  split
  · exact hnd
  · rename_i hnew
    refine List.nodup_append.mpr ⟨hnd, List.pairwise_singleton _ _, fun k hk k' hk' heq => ?_⟩
    rw [List.mem_singleton.mp hk'] at heq
    exact hnew (heq ▸ hk)

/-- Every entry of the map that a list writes is in the list. -/
theorem mem_of_ofList {entries : List (String × α)} {entry : String × α}
    (h : entry ∈ Ordered.ofList entries) : entry ∈ entries := by
  have hrun : ∀ (entries m : List (String × α)), entry ∈ Ordered.insertAll m entries →
      entry ∈ m ∨ entry ∈ entries := by
    intro entries
    induction entries with
    | nil => exact fun _ h => .inl h
    | cons first rest ih =>
        intro m h
        rcases ih (Ordered.insert m first.1 first.2) h with h | h
        · exact (mem_insert_cases h).imp_right fun heq => by rw [heq]; exact List.mem_cons_self ..
        · exact .inr (List.mem_cons_of_mem _ h)
  exact (hrun entries [] h).resolve_left List.not_mem_nil

/-- Writing what is there changes nothing. -/
theorem insert_self {α : Type} {m : Ordered α} {key : String} {v : α}
    (h : Ordered.get? m key = some v) : Ordered.insert m key v = m := by
  induction m with
  | nil => cases h
  | cons entry rest ih =>
      obtain ⟨k, w⟩ := entry
      rw [Ordered.get?_cons] at h
      by_cases hk : key = k
      · subst hk
        rw [beq_self_eq_true, if_pos rfl] at h
        cases h
        rw [Ordered.insert, beq_self_eq_true, if_pos rfl]
      · have hkey : (key == k) = false := by simpa using hk
        have hkey' : (k == key) = false := by simpa using fun heq : k = key => hk heq.symm
        rw [hkey, if_neg Bool.false_ne_true] at h
        rw [Ordered.insert, hkey', if_neg Bool.false_ne_true, ih h]

/-- Entries with distinct new keys are written one behind the other. -/
theorem insertAll_of_nodup {m entries : List (String × α)} (hnd : (Ordered.keys entries).Nodup)
    (hnew : ∀ key ∈ Ordered.keys entries, key ∉ Ordered.keys m) :
    Ordered.insertAll m entries = m ++ entries := by
  induction entries generalizing m with
  | nil => exact (List.append_nil m).symm
  | cons entry rest ih =>
      obtain ⟨k, v⟩ := entry
      obtain ⟨hk, hrest⟩ := List.nodup_cons.mp hnd
      have hinsert := insert_of_absent (hnew k (List.mem_cons_self ..)) v
      show Ordered.insertAll (Ordered.insert m k v) rest = _
      rw [hinsert, ih hrest, List.append_assoc, List.singleton_append]
      intro key hkey
      rw [Ordered.keys, List.map_append, List.mem_append, not_or]
      refine ⟨hnew key (List.mem_cons_of_mem _ hkey), fun hmem => hk ?_⟩
      rw [← List.mem_singleton.mp hmem]
      exact hkey

/-- A key reads what the entries write under it, or what was there before. -/
theorem get?_insertAll (m entries : List (String × α)) (key : String) :
    Ordered.get? (Ordered.insertAll m entries) key =
      (Ordered.get? (Ordered.ofList entries) key).or (Ordered.get? m key) := by
  induction entries generalizing m with
  | nil => rfl
  | cons entry rest ih =>
      have hall := ih (Ordered.insert m entry.1 entry.2)
      have hown := ih (Ordered.insert [] entry.1 entry.2)
      show Ordered.get? (Ordered.insertAll (Ordered.insert m entry.1 entry.2) rest) key =
        (Ordered.get? (Ordered.insertAll (Ordered.insert [] entry.1 entry.2) rest) key).or _
      rw [hall, hown, Ordered.get?_insert, Ordered.get?_insert]
      split <;> simp

/-- Nor does writing several entries that are there, one after another. -/
theorem insertAll_self {m entries : List (String × α)}
    (h : ∀ e ∈ entries, Ordered.get? m e.1 = some e.2) : Ordered.insertAll m entries = m := by
  induction entries with
  | nil => rfl
  | cons entry rest ih =>
      show Ordered.insertAll (Ordered.insert m entry.1 entry.2) rest = m
      rw [insert_self (h entry (List.mem_cons_self ..)),
        ih fun e he => h e (List.mem_cons_of_mem _ he)]

/-- What is written is read under the written keys and nowhere else. -/
theorem get?_ofList_eq_none_iff {entries : List (String × α)} {key : String} :
    Ordered.get? (Ordered.ofList entries) key = none ↔ key ∉ Ordered.keys entries := by
  induction entries with
  | nil => simp [Ordered.ofList, Ordered.insertAll, Ordered.keys]
  | cons entry rest ih =>
      have hread : Ordered.get? (Ordered.ofList (entry :: rest)) key =
          (Ordered.get? (Ordered.ofList rest) key).or
            (if key == entry.1 then some entry.2 else none) := by
        show Ordered.get? (Ordered.insertAll (Ordered.insert [] entry.1 entry.2) rest) key = _
        rw [get?_insertAll, Ordered.get?_insert, Ordered.get?_nil]
      rw [hread, Option.or_eq_none_iff, ih, and_comm]
      simp [Ordered.keys]

theorem keys_insertAll (m entries : List (String × α)) :
    Ordered.keys (Ordered.insertAll m entries) =
      Ordered.keys m ++ ((Ordered.keys entries).removeAll (Ordered.keys m)).eraseDups := by
  induction entries generalizing m with
  | nil => simp [Ordered.insertAll, Ordered.keys]
  | cons entry rest ih =>
      obtain ⟨k, v⟩ := entry
      have hcons : Ordered.keys ((k, v) :: rest) = k :: Ordered.keys rest := rfl
      show Ordered.keys (Ordered.insertAll (Ordered.insert m k v) rest) = _
      rw [ih, keys_of_insert, hcons]
      by_cases hk : k ∈ Ordered.keys m
      · rw [if_pos hk, List.cons_removeAll]
        simp [hk]
      · rw [if_neg hk, List.cons_removeAll]
        have hfilter : (fun x => !decide (x = k) && !decide (x ∈ Ordered.keys m)) =
            fun x => !x == k && !decide (x ∈ Ordered.keys m) := by
          funext x
          rw [Bool.beq_eq_decide_eq]
        simp [hk, List.eraseDups_cons, List.removeAll, List.filter_filter, Bool.and_comm, hfilter]

/-- **The keys of the map that entries write are those of the entries, each where it comes first.**
-/
theorem keys_ofList (entries : List (String × α)) :
    Ordered.keys (Ordered.ofList entries) = (Ordered.keys entries).eraseDups := by
  have hempty : (Ordered.keys entries).removeAll (Ordered.keys ([] : Ordered α)) =
      Ordered.keys entries := List.removeAll_nil
  rw [Ordered.ofList, keys_insertAll, hempty]
  rfl

theorem mem_keys_ofList {entries : List (String × α)} {key : String} :
    key ∈ Ordered.keys (Ordered.ofList entries) ↔ key ∈ Ordered.keys entries := by
  rw [keys_ofList, List.mem_eraseDups]

/-- A list of entries with distinct keys is the map that it writes. -/
theorem ofList_of_nodup {entries : List (String × α)} (h : (Ordered.keys entries).Nodup) :
    Ordered.ofList entries = entries :=
  insertAll_of_nodup h fun _ _ => List.not_mem_nil

/-- Entries with distinct keys are read, whatever was written before them. -/
theorem get?_ofList_append {entries later : List (String × α)} (hnd : (Ordered.keys later).Nodup)
    {entry : String × α} (h : entry ∈ later) :
    Ordered.get? (Ordered.ofList (entries ++ later)) entry.1 = some entry.2 := by
  have hwrite : Ordered.ofList (entries ++ later) =
      Ordered.insertAll (Ordered.ofList entries) later := List.foldl_append
  rw [hwrite, get?_insertAll, ofList_of_nodup hnd, get?_of_mem hnd h, Option.some_or]

variable {β : Type} (φ : α → β)

theorem get?_map (m : Ordered α) (key : String) :
    Ordered.get? (m.map fun e => (e.1, φ e.2)) key = (Ordered.get? m key).map φ := by
  induction m with
  | nil => rfl
  | cons entry rest ih =>
      rw [List.map_cons, Ordered.get?_cons, Ordered.get?_cons, ih]
      split <;> rfl

theorem insert_map (m : Ordered α) (key : String) (v : α) :
    Ordered.insert (m.map fun e => (e.1, φ e.2)) key (φ v) =
      (Ordered.insert m key v).map fun e => (e.1, φ e.2) := by
  induction m with
  | nil => rfl
  | cons entry rest ih =>
      obtain ⟨k, w⟩ := entry
      rw [List.map_cons, Ordered.insert, Ordered.insert]
      dsimp only
      split
      · rfl
      · rw [ih, List.map_cons]

end Formwork.Proofs
