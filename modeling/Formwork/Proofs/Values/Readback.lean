import Formwork.Proofs.Schema.Cardinality
import Formwork.Proofs.Values.ErrorTree

/-!
# Issues read back from their tree

The issues of form values are made into a tree, and the tree is asked for a path. Which
issues it holds is decided one by one (`placed`): an issue is placed unless one that is
placed already stands in its way, because their paths cross, or because the path of the
placed one marks an object that the other leads to or through. No two placed issues cross.

What stands in the tree at a path is then the placed issue with that path. It is also what
is read there, unless the path leads to an object that is marked.
-/

namespace Formwork.Proofs

open Formwork ErrorTree

/-! ## Which issues are placed -/

/-- The path of one issue leads through that of the other. -/
def Crossing (i j : Issue) : Prop := Crosses (pathParts i.path) (pathParts j.path)

instance (i j : Issue) : Decidable (Crossing i j) := inferInstanceAs (Decidable (Crosses _ _))

/-- An issue that is placed stands in the way of another. -/
def Blocks (j i : Issue) : Prop := Crossing i j ∨ Marks (pathParts j.path) (pathParts i.path)

instance (j i : Issue) : Decidable (Blocks j i) := inferInstanceAs (Decidable (_ ∨ _))

/-- An issue is kept unless one that is kept already stands in its way. -/
def keep (kept : List Issue) (i : Issue) : List Issue :=
  if ∃ j ∈ kept, Blocks j i then kept else kept ++ [i]

/-- The issues that the tree holds. -/
def placed (issues : List Issue) : List Issue := issues.foldl keep []

theorem crossing_comm {i j : Issue} : Crossing i j ↔ Crossing j i := crosses_comm

theorem crossing_of_path {i j : Issue} (h : i.path = j.path) : Crossing i j :=
  .inl (h ▸ List.prefix_rfl)

theorem keep_of_blocked {kept : List Issue} {i : Issue} (h : ∃ j ∈ kept, Blocks j i) :
    keep kept i = kept := if_pos h

theorem keep_of_free {kept : List Issue} {i : Issue} (h : ∀ j ∈ kept, ¬Blocks j i) :
    keep kept i = kept ++ [i] :=
  if_neg fun ⟨j, hj, hblocks⟩ => h j hj hblocks

theorem keep_cases (kept : List Issue) (i : Issue) :
    (∃ j ∈ kept, Blocks j i) ∨ ∀ j ∈ kept, ¬Blocks j i := by
  by_cases h : ∃ j ∈ kept, Blocks j i
  · exact .inl h
  · exact .inr fun j hj hblocks => h ⟨j, hj, hblocks⟩

/-- What a tree holds: it is a forest over parts, and the kept issues stand at their paths. -/
structure Holds (tree : Members) (kept : List Issue) : Prop where
  forest : Forest tree
  keys : ∀ part v, Ordered.get? tree part = some v → pathParts part = [part]
  leaves : ∀ q, q ≠ [] → leafAt q (.object tree) =
    (kept.find? fun i => pathParts i.path == q).map errorOf

theorem holds_nil : Holds [] [] := by
  refine ⟨forest_nil, nofun, fun q _ => ?_⟩
  cases q <;> rfl

/-- Where something stands a kept issue has the path. -/
theorem Holds.exists_of_leafAt {tree : Members} {kept : List Issue} (h : Holds tree kept)
    {q : List String} (hq : q ≠ []) (hleaf : leafAt q (.object tree) ≠ none) :
    ∃ j ∈ kept, pathParts j.path = q := by
  rw [h.leaves q hq] at hleaf
  cases hfind : kept.find? fun i => pathParts i.path == q with
  | none => rw [hfind] at hleaf; exact absurd rfl hleaf
  | some j => exact ⟨j, List.mem_of_find?_eq_some hfind, by simpa using List.find?_some hfind⟩

theorem Holds.leafAt_path {tree : Members} {kept : List Issue} (h : Holds tree kept) {j : Issue}
    (hj : j ∈ kept) : leafAt (pathParts j.path) (.object tree) ≠ none := by
  rw [h.leaves _ (pathParts_ne_nil _), Ne, Option.map_eq_none_iff, List.find?_eq_none]
  exact fun hnone => hnone j hj (beq_self_eq_true _)

/-- The first part of a path, and only that, may be a new key. -/
theorem keys_insert {tree : Members}
    (h : ∀ part v, Ordered.get? tree part = some v → pathParts part = [part]) (error : Value)
    (p : String) : ∀ part v, Ordered.get? (insert error tree (pathParts p)) part = some v →
      pathParts part = [part] := by
  intro part v hv
  obtain ⟨first, rest, hparts⟩ := List.exists_cons_of_ne_nil (pathParts_ne_nil p)
  by_cases hpart : part = first
  · subst hpart
    exact pathParts_part (hparts ▸ List.mem_cons_self ..)
  · rw [hparts, get?_insert_of_ne _ _ _ hpart] at hv
    exact h part v hv

/-- **Placing an issue keeps it, or leaves the tree as it is.** -/
theorem Holds.step {tree : Members} {kept : List Issue} (h : Holds tree kept) (i : Issue) :
    Holds (insert (entry i) tree (pathParts i.path)) (keep kept i) := by
  rcases keep_cases kept i with hblocked | hfree
  · obtain ⟨j, hj, hway⟩ := hblocked
    rw [keep_of_blocked ⟨j, hj, hway⟩,
      insert_of_taken i (pathParts_ne_nil _) hway h.forest (h.leafAt_path hj)]
    exact h
  · have hroom : Free tree (pathParts i.path) := by
      intro q hq hway
      rw [h.leaves q hq, Option.map_eq_none_iff, List.find?_eq_none]
      intro j hj hparts
      obtain rfl := eq_of_beq hparts
      exact hfree j hj hway
    obtain ⟨hforest, hleaves⟩ := insert_of_free i (pathParts_ne_nil _) h.forest hroom
    rw [keep_of_free hfree]
    refine ⟨hforest, keys_insert h.keys _ _, fun q hq => ?_⟩
    rw [hleaves q hq, List.find?_append, h.leaves q hq]
    by_cases hown : q = pathParts i.path
    · have hnone : (kept.find? fun j => pathParts j.path == q) = none := by
        rw [List.find?_eq_none]
        intro j hj hparts
        have hsame : pathParts j.path = pathParts i.path := (eq_of_beq hparts).trans hown
        exact hfree j hj (.inl (.inl (hsame ▸ List.prefix_rfl)))
      rw [if_pos hown, hnone, hown, List.find?_cons, beq_self_eq_true]
      rfl
    · have hne : (pathParts i.path == q) = false := by
        simpa using fun heq : pathParts i.path = q => hown heq.symm
      rw [if_neg hown, List.find?_cons, hne, List.find?_nil, Option.or_none]

/-- The tree of issues holds the issues that are placed. -/
theorem holds_ofIssues (issues : List Issue) : Holds (ofIssues issues) (placed issues) := by
  have hrun : ∀ (issues : List Issue) (tree : Members) (kept : List Issue), Holds tree kept →
      Holds (issues.foldl (fun tree i => insert (entry i) tree (pathParts i.path)) tree)
        (issues.foldl keep kept) := by
    intro issues
    induction issues with
    | nil => exact fun _ _ h => h
    | cons i issues ih => exact fun tree kept h => ih _ _ (h.step i)
  exact hrun issues [] [] holds_nil

/-! ## Placed issues -/

theorem prefix_keep (kept : List Issue) (i : Issue) : kept <+: keep kept i := by
  rcases keep_cases kept i with hblocked | hfree
  · exact (keep_of_blocked hblocked).symm ▸ List.prefix_rfl
  · exact (keep_of_free hfree).symm ▸ List.prefix_append kept [i]

/-- What is placed of some issues stays placed. -/
theorem prefix_placed (before after : List Issue) : placed before <+: placed (before ++ after) := by
  unfold placed
  rw [List.foldl_append]
  exact List.foldlRecOn after keep List.prefix_rfl fun kept h i _ => h.trans (prefix_keep kept i)

/-- Only issues are placed. -/
theorem placed_subset (issues : List Issue) : placed issues ⊆ issues := by
  refine List.foldlRecOn (motive := (· ⊆ issues)) issues keep (List.nil_subset _)
    fun kept h i hi => ?_
  rcases keep_cases kept i with hblocked | hfree
  · exact (keep_of_blocked hblocked).symm ▸ h
  · rw [keep_of_free hfree]
    exact List.append_subset.mpr ⟨h, List.cons_subset.mpr ⟨hi, List.nil_subset issues⟩⟩

/-- Placed issues do not cross. -/
theorem placed_apart (issues : List Issue) :
    (placed issues).Pairwise fun i j => ¬Crossing j i := by
  refine List.foldlRecOn issues keep List.Pairwise.nil fun kept h i _ => ?_
  rcases keep_cases kept i with hblocked | hfree
  · rw [keep_of_blocked hblocked]
    exact h
  · rw [keep_of_free hfree, List.pairwise_append]
    refine ⟨h, List.pairwise_singleton _ _, fun j hj k hk hcross => ?_⟩
    rw [List.mem_singleton.mp hk] at hcross
    exact hfree j hj (.inl hcross)

/-- Placed issues that cross are one and the same. -/
theorem eq_of_placed_crossing {issues : List Issue} {i j : Issue} (hi : i ∈ placed issues)
    (hj : j ∈ placed issues) (h : Crossing i j) : i = j := by
  have hback : (placed issues).Pairwise fun i j => Crossing j i → j = i :=
    (placed_apart issues).imp fun hapart hcross => absurd hcross hapart
  have hforth : (placed issues).Pairwise fun i j => Crossing i j → i = j :=
    hback.imp fun hsame hcross => (hsame (crossing_comm.mp hcross)).symm
  exact hforth.forall_of_forall_of_flip (fun _ _ _ => rfl) hback hi hj h

/-- The first issue with a path is placed when nothing placed before it stands in its way. -/
theorem mem_placed_of_free {before after : List Issue} {i : Issue}
    (h : ∀ j ∈ placed before, ¬Blocks j i) : i ∈ placed (before ++ i :: after) := by
  have hkeep : placed (before ++ [i]) = placed before ++ [i] := by
    rw [placed, List.foldl_append]
    exact keep_of_free h
  have hprefix := prefix_placed (before ++ [i]) after
  rw [hkeep, List.append_assoc, List.singleton_append] at hprefix
  exact hprefix.subset (List.mem_append_right _ (List.mem_singleton_self i))

/-! ## The issues of a schema -/

/-- The fields of a schema are fields of its blocks. -/
theorem ofBlocks_field {validators : Ordered CustomValidator} {blocks : List Block}
    {schema : Schema} (h : Schema.ofBlocks validators blocks = .ok schema)
    {entry : String × FieldSchema} (hentry : entry ∈ schema.fields) :
    ∃ b ∈ blocks, ∃ f ∈ b.fields, f.id = entry.1 := by
  obtain ⟨own, hown, h⟩ := bind_eq_ok.mp h
  obtain ⟨groups, -, heq⟩ := bind_eq_ok.mp h
  cases heq
  obtain ⟨f, hf, hfield⟩ := mem_mapM hown (mem_of_ofList hentry)
  obtain ⟨s, -, heq⟩ := bind_eq_ok.mp hfield
  cases heq
  obtain ⟨b, hb, hf⟩ := List.mem_flatMap.mp (List.mem_filter.mp hf).1
  exact ⟨b, hb, f, hf, rfl⟩

theorem memberOf?_ne_empty {f : Field} {g : String} (h : f.memberOf? = some g) : g ≠ "" := by
  unfold Field.memberOf? at h
  split at h
  · cases h
  · simpa using (Option.filter_eq_some_iff.mp h).2

theorem path_of_groupIssue {s : GroupSchema} {v : Value} {issues : List Issue} {i : Issue}
    (h : s.issues v = .ok issues) (hi : i ∈ issues) :
    ∃ rest, i.path = ".".intercalate (s.id :: rest) := by
  obtain ⟨faults, -, rfl⟩ := map_eq_ok.mp h
  obtain ⟨f, -, rfl⟩ := List.mem_map.mp hi
  exact ⟨f.path, rfl⟩

/-- Every issue of a schema has a path, when the fields have ids. -/
theorem path_ne_empty {validators : Ordered CustomValidator} {blocks : List Block}
    {schema : Schema} (h : Schema.ofBlocks validators blocks = .ok schema)
    (hids : ∀ b ∈ blocks, ∀ f ∈ b.fields, f.id ≠ "") {values : Members} {issues : List Issue}
    (hv : schema.validate values = .ok issues) : ∀ i ∈ issues, i.path ≠ "" := by
  rw [validate_eq] at hv
  obtain ⟨own, hown, hv⟩ := bind_eq_ok.mp hv
  obtain ⟨grouped, hgrouped, heq⟩ := bind_eq_ok.mp hv
  cases heq
  intro i hi
  rcases List.mem_append.mp hi with hi | hi
  · obtain ⟨found, hfound, hi⟩ := List.mem_flatten.mp hi
    obtain ⟨entry, hentry, hissues⟩ := mem_mapM hown hfound
    obtain ⟨b, hb, f, hf, hid⟩ := ofBlocks_field h hentry
    obtain ⟨answer, -, rfl⟩ := map_eq_ok.mp hissues
    cases answer with
    | ok w => exact absurd hi List.not_mem_nil
    | error r =>
        rw [List.mem_singleton.mp hi]
        exact hid ▸ hids b hb f hf
  · obtain ⟨found, hfound, hi⟩ := List.mem_flatten.mp hi
    obtain ⟨⟨g, s⟩, hgroup, hissues⟩ := mem_mapM hgrouped hfound
    obtain ⟨b, ⟨-, -, -, ⟨f, -, hmember⟩, -⟩, hbounds⟩ := ofBlocks_group h hgroup
    obtain ⟨rest, hpath⟩ := path_of_groupIssue hissues hi
    have hg : s.id ≠ "" := hbounds.id ▸ memberOf?_ne_empty hmember
    rw [hpath]
    cases rest with
    | nil => rwa [String.intercalate_singleton]
    | cons next rest =>
        rw [String.intercalate_cons_of_ne_nil (List.cons_ne_nil _ _)]
        simp [hg]

/-! ## Reading back -/

/-- What the tree of issues has at a path. -/
def readBack (issues : List Issue) (p : String) : Except NumberFault (Option Members) :=
  lookup (.object (ofIssues issues)) p

section ReadBack

variable {issues : List Issue} {p : String}

theorem readBack_eq (hp : p ≠ "") :
    readBack issues p = .ok (errorAt (pathParts p) (.object (ofIssues issues))) :=
  lookup_forest (holds_ofIssues issues).forest (holds_ofIssues issues).keys hp

/-- A placed issue is read back. -/
theorem readBack_of_placed {i : Issue} (hp : i.path ≠ "") (hi : i ∈ placed issues) :
    readBack issues i.path = .ok (some (errorOf i)) := by
  have hholds := holds_ofIssues issues
  have hfind : ((placed issues).find? fun j => pathParts j.path == pathParts i.path) = some i := by
    cases hfind : (placed issues).find? fun j => pathParts j.path == pathParts i.path with
    | none => exact absurd (beq_self_eq_true _) (List.find?_eq_none.mp hfind i hi)
    | some j =>
        have hpath : j.path = i.path := pathParts_inj.mp (by simpa using List.find?_some hfind)
        rw [eq_of_placed_crossing (List.mem_of_find?_eq_some hfind) hi (crossing_of_path hpath)]
  rw [readBack_eq hp, errorAt_of_leafAt (e := errorOf i)]
  rw [hholds.leaves _ (pathParts_ne_nil _), hfind]
  rfl

/-- What is read back was placed there, or marks an object there. -/
theorem placed_of_readBack (hp : p ≠ "") (h : readBack issues p ≠ .ok none) :
    ∃ k ∈ placed issues, k.path = p ∨ ∃ w, pathParts k.path = pathParts p ++ messageKey :: w := by
  have hholds := holds_ofIssues issues
  rw [readBack_eq hp, Ne, Except.ok.injEq] at h
  rcases hholds.forest.read (pathParts_ne_nil p) with heq | ⟨w, hw⟩
  · obtain ⟨k, hk, hparts⟩ := hholds.exists_of_leafAt (pathParts_ne_nil p) (heq ▸ h)
    exact ⟨k, hk, .inl (pathParts_inj.mp hparts)⟩
  · obtain ⟨k, hk, hparts⟩ := hholds.exists_of_leafAt (by simp) hw
    exact ⟨k, hk, .inr ⟨w, hparts⟩⟩

/-- No issue has a path that marks the object which this path leads to, or one on the way. -/
def Unmarked (issues : List Issue) (p : String) : Prop :=
  ∀ j ∈ issues, ¬Marks (pathParts j.path) (pathParts p)

/-- At a path that no placed issue has nothing is read back, unless the path is marked. -/
theorem readBack_of_unplaced (hp : p ≠ "") (hmark : Unmarked issues p)
    (h : ∀ k ∈ placed issues, k.path ≠ p) : readBack issues p = .ok none := by
  refine Classical.byContradiction fun hread => ?_
  obtain ⟨k, hk, hpath | ⟨w, hparts⟩⟩ := placed_of_readBack hp hread
  · exact h k hk hpath
  · exact hmark k (placed_subset _ hk) ⟨_, w, pathParts_ne_nil p, hparts, List.prefix_rfl⟩

/-- The first issue with an unmarked path is read back when no issue before it that crosses it is. -/
theorem readBack_first {before after : List Issue} {i : Issue}
    (hpaths : ∀ j ∈ before ++ i :: after, j.path ≠ "")
    (hmark : Unmarked (before ++ i :: after) i.path)
    (hlost : ∀ j ∈ before, Crossing i j → readBack (before ++ i :: after) j.path = .ok none) :
    readBack (before ++ i :: after) i.path = .ok (some (errorOf i)) := by
  have hfree : ∀ j ∈ placed before, ¬Blocks j i := by
    intro j hj hblocks
    have hmem : j ∈ before ++ i :: after := List.mem_append_left _ (placed_subset _ hj)
    have hcross := hblocks.resolve_right (hmark j hmem)
    have hplaced : j ∈ placed (before ++ i :: after) := (prefix_placed before _).subset hj
    have hnone := hlost j (placed_subset _ hj) hcross
    rw [readBack_of_placed (hpaths j hmem) hplaced] at hnone
    cases hnone
  exact readBack_of_placed (hpaths i (by simp)) (mem_placed_of_free hfree)

/-- An issue with an unmarked path is not read back when an issue with another path that crosses it
is. -/
theorem readBack_crossed {i j : Issue} (hi : i.path ≠ "") (hj : j.path ≠ "")
    (hmark : Unmarked issues i.path) (hne : j.path ≠ i.path) (hcross : Crossing i j)
    (hread : readBack issues j.path ≠ .ok none) : readBack issues i.path = .ok none := by
  obtain ⟨k, hk, hpath⟩ := placed_of_readBack hj hread
  -- what was placed there crosses the path as well, and does not have it
  obtain ⟨hki, hkne⟩ : Crossing k i ∧ k.path ≠ i.path := by
    rcases hpath with hpath | ⟨w, hparts⟩
    · refine ⟨?_, hpath ▸ hne⟩
      unfold Crossing
      rw [hpath]
      exact crosses_comm.mp hcross
    · rcases hcross with hij | hji
      · refine ⟨.inr (hparts ▸ hij.trans (List.prefix_append ..)), fun hsame => ?_⟩
        have hlength := hij.length_le
        rw [← hsame, hparts, List.length_append, List.length_cons] at hlength
        omega
      · exact absurd ⟨_, w, pathParts_ne_nil _, hparts, hji⟩ (hmark k (placed_subset _ hk))
  refine readBack_of_unplaced hi hmark fun k' hk' hpath' => hkne ?_
  have hkk' : Crossing k k' := by
    unfold Crossing at hki ⊢
    rw [hpath']
    exact hki
  rw [eq_of_placed_crossing hk hk' hkk', hpath']

end ReadBack

/--
**Issues are read back from their tree.**

Take what the schema of a form or block finds wrong with any values, and a path such that no issue
marks the object which the path leads to, or one on the way. If no issue has the path nothing is read
back at it. If one has, the first such issue is read back, unless an issue before it that crosses it
is read back; then nothing is. So when no two different paths cross, the first issue with the path is
what is read back, and nothing when there is none.
-/
theorem errors_read_back {validators : Ordered CustomValidator} {blocks : List Block}
    {schema : Schema} (h : Schema.ofBlocks validators blocks = .ok schema)
    (hids : ∀ b ∈ blocks, ∀ f ∈ b.fields, f.id ≠ "") {values : Members} {issues : List Issue}
    (hv : schema.validate values = .ok issues) {p : String} (hmark : Unmarked issues p) :
    ((∀ i ∈ issues, i.path ≠ p) → readBack issues p = .ok none)
      ∧ (∀ before i after, issues = before ++ i :: after → i.path = p →
          (∀ j ∈ before, j.path ≠ p) →
          ((∀ j ∈ before, Crossing i j → readBack issues j.path = .ok none) →
            readBack issues p = .ok (some (errorOf i)))
          ∧ ∀ j ∈ before, Crossing i j → readBack issues j.path ≠ .ok none →
              readBack issues p = .ok none)
      ∧ ((∀ i ∈ issues, ∀ j ∈ issues, Crossing i j → i.path = j.path) →
          readBack issues p = .ok ((issues.find? fun i => i.path == p).map errorOf)) := by
  have hpaths := path_ne_empty h hids hv
  have habsent : (∀ i ∈ issues, i.path ≠ p) → readBack issues p = .ok none := by
    intro hnone
    by_cases hp : p = ""
    · rw [hp]
      rfl
    · exact readBack_of_unplaced hp hmark fun k hk => hnone k (placed_subset _ hk)
  refine ⟨habsent, ?_, fun hsame => ?_⟩
  · rintro before i after rfl rfl hnew
    refine ⟨readBack_first hpaths hmark, fun j hj hcross hread => ?_⟩
    exact readBack_crossed (hpaths i (by simp)) (hpaths j (List.mem_append_left _ hj)) hmark
      (hnew j hj) hcross hread
  · cases hfind : issues.find? fun i => i.path == p with
    | none =>
        exact habsent fun i hi hpath => List.find?_eq_none.mp hfind i hi (beq_iff_eq.mpr hpath)
    | some i =>
        obtain ⟨hpath, before, after, rfl, hbefore⟩ := List.find?_eq_some_iff_append.mp hfind
        obtain rfl := eq_of_beq hpath
        refine readBack_first hpaths hmark fun j hj hcross => ?_
        have hji := hsame i (by simp) j (List.mem_append_left _ hj) hcross
        exact absurd hji.symm (by simpa using hbefore j hj)

/-! ## An error lost, an error invented -/

/-- A required text field. -/
def requiredField (id : String) : Field :=
  { textField id with validation := [⟨"required", none, ""⟩] }

/-- A block with a field above another: the path of the first leads to the second. -/
def crossingBlocks : List Block := [fieldBlock "main" [requiredField "a", requiredField "a.b"]]

/-- What is wrong when both are missing. -/
def crossingIssues : List Issue :=
  [⟨"a", "This field is required", "required"⟩, ⟨"a.b", "This field is required", "required"⟩]

theorem validate_crossingBlocks :
    ∃ schema, Schema.ofBlocks [] crossingBlocks = .ok schema
      ∧ schema.validate [] = .ok crossingIssues := ⟨_, rfl, rfl⟩

/-- The error of the field above is read back, and with it the other is not. -/
theorem errors_read_back_crossing :
    ∃ schema, Schema.ofBlocks [] crossingBlocks = .ok schema
      ∧ (∀ b ∈ crossingBlocks, ∀ f ∈ b.fields, f.id ≠ "")
      ∧ schema.validate [] = .ok crossingIssues
      ∧ Unmarked crossingIssues "a" ∧ Unmarked crossingIssues "a.b"
      ∧ readBack crossingIssues "a" =
        .ok (some (errorOf ⟨"a", "This field is required", "required"⟩))
      ∧ readBack crossingIssues "a.b" = .ok none := by
  obtain ⟨schema, hschema, hissues⟩ := validate_crossingBlocks
  have hids : ∀ b ∈ crossingBlocks, ∀ f ∈ b.fields, f.id ≠ "" := by decide
  have ha : Unmarked crossingIssues "a" := by unfold Unmarked; decide
  have hb : Unmarked crossingIssues "a.b" := by unfold Unmarked; decide
  have hread : readBack crossingIssues "a" =
      .ok (some (errorOf ⟨"a", "This field is required", "required"⟩)) :=
    ((errors_read_back hschema hids hissues ha).2.1 [] _ _ rfl rfl nofun).1 nofun
  refine ⟨schema, hschema, hids, hissues, ha, hb, hread, ?_⟩
  refine ((errors_read_back hschema hids hissues hb).2.1 [_] _ [] rfl rfl (by decide)).2 _
    (List.mem_singleton_self _) (by decide) ?_
  rw [hread]
  exact nofun

/-- A block with a field whose path marks the object that it leads through. -/
def markingBlocks : List Block := [fieldBlock "main" [requiredField "a.message"]]

/-- What is wrong when it is missing. -/
def markingIssues : List Issue := [⟨"a.message", "This field is required", "required"⟩]

theorem validate_markingBlocks :
    ∃ schema, Schema.ofBlocks [] markingBlocks = .ok schema
      ∧ schema.validate [] = .ok markingIssues := ⟨_, rfl, rfl⟩

/-- So the only issue at a path may not be read back at it, and something may be read back at a path
that no issue has. -/
theorem error_lost_error_invented :
    (∃ schema, Schema.ofBlocks [] crossingBlocks = .ok schema
        ∧ schema.validate [] = .ok crossingIssues
        ∧ (crossingIssues.find? fun i => i.path == "a.b") =
          some ⟨"a.b", "This field is required", "required"⟩
        ∧ lookup (.object (ofIssues crossingIssues)) "a.b" = .ok none)
      ∧ ∃ schema, Schema.ofBlocks [] markingBlocks = .ok schema
        ∧ schema.validate [] = .ok markingIssues
        ∧ (markingIssues.find? fun i => i.path == "a") = none
        ∧ lookup (.object (ofIssues markingIssues)) "a" ≠ .ok none := by
  obtain ⟨above, habove, hlost⟩ := validate_crossingBlocks
  obtain ⟨marked, hmarked, hinvented⟩ := validate_markingBlocks
  have hread : lookup (.object (ofIssues markingIssues)) "a" =
      .ok (some [(messageKey, entry ⟨"a.message", "This field is required", "required"⟩)]) := by rfl
  refine ⟨⟨above, habove, hlost, by decide, by rfl⟩, marked, hmarked, hinvented, by decide, ?_⟩
  rw [hread]
  exact nofun

end Formwork.Proofs
