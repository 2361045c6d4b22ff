import Formwork.Proofs.Ordered
import Formwork.Reference.Collection

/-!
# What a collection holds

A provider may change as it is asked, so what it "knows" is what it answers: `Gives`
is a run of lookups that all found something, from one state of the provider to
another. A collection that ends well is such a run. Each id is looked up once, because
what is pending has not been fetched yet, and no sub-form in it has a block that names
both a sub-form and a template.
-/

namespace Formwork.Proofs

open Formwork

variable {σ : Type}

/-- Lookups, one after another, that each found a sub-form. -/
inductive Gives (p : Provider σ) : σ → Catalog → σ → Prop where
  | nil {s : σ} : Gives p s [] s
  | cons {s t u : σ} {id : String} {f : SubForm} {rest : Catalog} :
      p.lookup id s = (.ok (some f), t) → Gives p t rest u → Gives p s ((id, f) :: rest) u

/-- The provider answers as `docs` says, in every state in which it answers. -/
def Serves (p : Provider σ) (docs : String → Option SubForm) : Prop :=
  ∀ (id : String) (s : σ) (found : Option SubForm), (p.lookup id s).1 = .ok found → found = docs id

theorem Gives.serves {p : Provider σ} {docs : String → Option SubForm} (hdocs : Serves p docs)
    {s t : σ} {given : Catalog} (h : Gives p s given t) :
    ∀ entry ∈ given, docs entry.1 = some entry.2 := by
  induction h with
  | nil => intro entry he; exact absurd he List.not_mem_nil
  | @cons s t u id f rest hlook _ ih =>
      intro entry he
      rcases List.mem_cons.mp he with rfl | he
      · exact (hdocs id s (some f) (by rw [hlook])).symm
      · exact ih entry he

/-! ## Conflicts -/

theorem checkConflicts_eq_ok {blocks : List Block} :
    checkConflicts blocks = .ok () ↔ ∀ b ∈ blocks, b.isConflicting = false := by
  unfold checkConflicts
  cases hf : blocks.find? Block.isConflicting with
  | none =>
      have hnone := List.find?_eq_none.mp hf
      simpa using hnone
  | some b =>
      have hb := List.find?_some hf
      have hmem := List.mem_of_find?_eq_some hf
      simp only [reduceCtorEq, false_iff]
      intro hall
      rw [hall b hmem] at hb
      exact Bool.false_ne_true hb

/-! ## The run -/

/-- What is pending has not been fetched. -/
theorem pending_absent {c : Collection} {id : String} {rest : List String}
    (h : c.pending = id :: rest) : id ∉ Ordered.keys c.fetched := by
  have hhead := List.head?_dropWhile_not (fun id => Ordered.has c.fetched id) c.queue
  unfold Collection.pending at h
  rw [h] at hhead
  exact has_eq_false_iff.mp hhead

/-- One lookup of a collection that ends well: nothing was pending, or the first id was found, without
conflicts in it, and the collection went on with its answer. -/
theorem run_succ_cases {p : Provider σ} {fuel : Nat} {c : Collection} {s t : σ} {catalog : Catalog}
    (h : Collection.run p (fuel + 1) c s = (.ok catalog, t)) :
    (c.pending = [] ∧ catalog = c.fetched ∧ s = t)
      ∨ ∃ id rest f s', c.pending = id :: rest ∧ p.lookup id s = (.ok (some f), s')
        ∧ (∀ b ∈ f.blocks, b.isConflicting = false)
        ∧ Collection.run p fuel (c.add id rest f) s' = (.ok catalog, t) := by
  rw [Collection.run] at h
  split at h
  · rename_i hpend
    cases h
    exact .inl ⟨hpend, rfl, rfl⟩
  · rename_i id rest hpend
    split at h
    · cases h
    · cases h
    · rename_i f s' hlook
      split at h
      · cases h
      · rename_i hconf
        exact .inr ⟨id, rest, f, s', hpend, hlook, checkConflicts_eq_ok.mp hconf, h⟩

/-- What is found for a pending id is written behind what has been fetched. -/
theorem add_fetched {c : Collection} {id : String} {rest : List String}
    (h : c.pending = id :: rest) (f : SubForm) :
    (c.add id rest f).fetched = c.fetched ++ [(id, f)] :=
  insert_of_absent (pending_absent h) f

/-- Distinct ids stay distinct. -/
theorem add_nodup {c : Collection} {id : String} {rest : List String}
    (h : c.pending = id :: rest) (hnd : (Ordered.keys c.fetched).Nodup) (f : SubForm) :
    (Ordered.keys (c.add id rest f).fetched).Nodup := by
  rw [add_fetched h, Ordered.keys, List.map_append]
  refine List.nodup_append.mpr ⟨hnd, List.pairwise_singleton _ _, ?_⟩
  intro k hk k' hk' heq
  obtain rfl := List.mem_singleton.mp hk'
  exact pending_absent h (heq ▸ hk)

/-- **A collection that ends well is a run of lookups**, of different ids and without conflicts. -/
theorem run_gives {p : Provider σ} {fuel : Nat} {c : Collection} {s t : σ} {catalog : Catalog}
    (hnd : (Ordered.keys c.fetched).Nodup) (h : Collection.run p fuel c s = (.ok catalog, t)) :
    ∃ given, catalog = c.fetched ++ given ∧ Gives p s given t
      ∧ (Ordered.keys catalog).Nodup
      ∧ ∀ entry ∈ given, ∀ b ∈ entry.2.blocks, b.isConflicting = false := by
  induction fuel generalizing c s with
  | zero =>
      rw [Collection.run] at h
      cases h
      exact ⟨[], (List.append_nil _).symm, .nil, hnd, fun _ he => absurd he List.not_mem_nil⟩
  | succ fuel ih =>
      rcases run_succ_cases h with ⟨-, rfl, rfl⟩ | ⟨id, rest, f, s', hpend, hlook, hconf, hrun⟩
      · exact ⟨[], (List.append_nil _).symm, .nil, hnd, fun _ he => absurd he List.not_mem_nil⟩
      · obtain ⟨given, hcat, hgives, hkeys, hfree⟩ := ih (add_nodup hpend hnd f) hrun
        refine ⟨(id, f) :: given, ?_, .cons hlook hgives, hkeys, ?_⟩
        · rw [hcat, add_fetched hpend, List.append_assoc, List.singleton_append]
        · intro entry he
          rcases List.mem_cons.mp he with rfl | he
          · exact hconf
          · exact hfree entry he

/-- The catalog collected is what the provider gave, each id once. -/
theorem collectSubForms_gives {p : Provider σ} {blocks : List Block} {s t : σ} {catalog : Catalog}
    (h : collectSubForms p blocks s = (.ok catalog, t)) :
    Gives p s catalog t ∧ (Ordered.keys catalog).Nodup
      ∧ ∀ entry ∈ catalog, ∀ b ∈ entry.2.blocks, b.isConflicting = false := by
  obtain ⟨given, rfl, hgives, hkeys, hfree⟩ := run_gives (by simp [Ordered.keys]) h
  exact ⟨hgives, hkeys, hfree⟩

/-- Blocks that stand for nothing else are collected without a lookup. -/
theorem collectSubForms_of_nil (p : Provider σ) {blocks : List Block}
    (h : expansionIds blocks = []) (s : σ) : collectSubForms p blocks s = (.ok [], s) := by
  rw [collectSubForms, h]
  rfl

/-- An empty catalog means that there was nothing to collect. -/
theorem expansionIds_of_collect_nil {p : Provider σ} {blocks : List Block} {s t : σ}
    (h : collectSubForms p blocks s = (.ok [], t)) : expansionIds blocks = [] := by
  -- nothing has been fetched yet, so what is pending is the whole queue
  have hqueue : (Collection.mk (expansionIds blocks) []).pending = expansionIds blocks := by
    cases expansionIds blocks <;> rfl
  rcases run_succ_cases h with ⟨hpend, -, -⟩ | ⟨id, rest, f, s', hpend, -, -, hrun⟩
  · rwa [hqueue] at hpend
  · exfalso
    obtain ⟨given, hcat, -⟩ := run_gives (add_nodup hpend List.Pairwise.nil f) hrun
    rw [add_fetched hpend] at hcat
    cases hcat

end Formwork.Proofs
