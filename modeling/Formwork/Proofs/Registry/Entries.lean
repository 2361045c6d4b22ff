import Formwork.Proofs.Ordered
import Formwork.Registry.Basic

/-!
# The entries of a registry

A registry keeps the documents and the directories that they came from apart. What it holds under an
id are both, and loads are put in terms of these entries. No step of a registry needs the two maps to
be in step for that: a document that is stored anew brings its own source.
-/

namespace Formwork

/-- A registered document and the directory that it came from. -/
structure RegistryEntry (α : Type) where
  document : α
  source : Option String

namespace Registry

variable {α : Type}

/-- What is registered under the ids, in the order of the documents. -/
def entries (r : Registry α) : Ordered (RegistryEntry α) :=
  r.documents.map fun e => (e.1, ⟨e.2, r.source? e.1⟩)

end Registry

end Formwork

namespace Formwork.Proofs

open Formwork Formwork.Registry

variable {α : Type} {r : Registry α} {id : String} {d : α} {directory : String}

theorem keys_entries_eq (r : Registry α) : Ordered.keys r.entries = Ordered.keys r.documents := by
  simp [Registry.entries, Ordered.keys]

theorem length_entries_eq_size (r : Registry α) : r.entries.length = r.size := List.length_map _

theorem has_eq_false_iff_entries : r.has id = false ↔ id ∉ Ordered.keys r.entries := by
  rw [keys_entries_eq]
  exact has_eq_false_iff

theorem has_iff_entries : r.has id = true ↔ id ∈ Ordered.keys r.entries := by
  rw [keys_entries_eq]
  exact has_iff

/-- What an entry reads is the document and the source with the id. -/
theorem get?_entries (r : Registry α) (id : String) :
    Ordered.get? r.entries id = (r.lookup id).map fun d => ⟨d, r.source? id⟩ := by
  unfold Registry.entries Registry.lookup
  generalize r.documents = m
  induction m with
  | nil => rfl
  | cons e rest ih =>
      obtain ⟨k, d⟩ := e
      rw [List.map_cons, Ordered.get?_cons, Ordered.get?_cons, ih]
      by_cases hk : id = k
      · subst hk
        simp
      · simp [hk]

theorem lookup_of_entry {e : RegistryEntry α} (h : Ordered.get? r.entries id = some e) :
    r.lookup id = some e.document := by
  rw [get?_entries] at h
  obtain ⟨d, hd, rfl⟩ := Option.map_eq_some_iff.mp h
  exact hd

/-- The entries of documents change only with the sources of their own ids. -/
theorem map_source_congr {m : Ordered α} {source source' : String → Option String}
    (h : ∀ k ∈ Ordered.keys m, source k = source' k) :
    m.map (fun e => (e.1, (⟨e.2, source e.1⟩ : RegistryEntry α))) =
      m.map fun e => (e.1, ⟨e.2, source' e.1⟩) :=
  List.map_congr_left fun e he => by rw [h e.1 (List.mem_map_of_mem he)]

/-- **A new document is entered behind the others**, with the directory that it came from. -/
theorem entries_store (h : r.has id = false) :
    (r.store id d (some directory)).entries = r.entries ++ [(id, ⟨d, some directory⟩)] := by
  let source (k : String) : Option String :=
    Ordered.get? (Ordered.insert r.sources id directory) k
  have hnew : id ∉ Ordered.keys r.documents := has_eq_false_iff.mp h
  have hold : r.documents.map (fun e => (e.1, (⟨e.2, source e.1⟩ : RegistryEntry α))) =
      r.entries := by
    refine map_source_congr fun k hk => ?_
    have hne : k ≠ id := fun heq => hnew (heq ▸ hk)
    show Ordered.get? (Ordered.insert r.sources id directory) k = Ordered.get? r.sources k
    rw [Ordered.get?_insert, if_neg (by simpa using hne)]
  have hown : source id = some directory := by
    show Ordered.get? (Ordered.insert r.sources id directory) id = _
    rw [Ordered.get?_insert, if_pos (beq_self_eq_true id)]
  show (Ordered.insert r.documents id d).map
    (fun e => (e.1, (⟨e.2, source e.1⟩ : RegistryEntry α))) = _
  rw [insert_of_absent hnew, List.map_append, hold, List.map_singleton, hown]

/-- An entry is taken out, and the others stay. -/
theorem entries_remove (r : Registry α) (id : String) :
    (r.remove id).entries = Ordered.erase r.entries id := by
  have hkeys : Ordered.erase r.entries id =
      (Ordered.erase r.documents id).map fun e => (e.1, ⟨e.2, r.source? e.1⟩) := by
    rw [Registry.entries, Ordered.erase, Ordered.erase, List.filter_map]
    rfl
  rw [hkeys]
  refine map_source_congr fun k hk => ?_
  obtain ⟨e, he, rfl⟩ := List.mem_map.mp hk
  have hne : (e.1 == id) = false := by simpa using (List.mem_filter.mp he).2
  show Ordered.get? (Ordered.erase r.sources id) e.1 = _
  rw [Ordered.get?_erase, hne, if_neg Bool.false_ne_true]
  rfl

theorem has_remove (r : Registry α) (id : String) : (r.remove id).has id = false := by
  show (Ordered.get? (Ordered.erase r.documents id) id).isSome = false
  rw [Ordered.get?_erase, if_pos (beq_self_eq_true id)]
  rfl

end Formwork.Proofs
