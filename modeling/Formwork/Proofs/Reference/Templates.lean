import Formwork.Proofs.Reference.Fixpoint
import Mathlib.Data.List.Nodup
import Mathlib.Logic.Relation

/-!
# Chains of templates

A block that names a template takes over the fields of every block on the chain that begins
there. The chain is followed through the blocks as they were, before any of them is
expanded, with the ids that it has come through on a path. What the path does is to refuse:
a chain that is not refused is the one list of blocks that the references lead through
(`Chained`), wherever it was entered and under whatever limit (`chain_eq_ok_iff`).

So the chain of a block is its template, then the chain of its template. Expansion is
compositional for that reason, although it never looks at an expanded block; and as blocks
with distinct ids are found in any order, their order does not matter either.
-/

namespace Formwork.Proofs

open Formwork

/-- One block names another, which is there, as its template. -/
def Names (all : List Block) (b t : Block) : Prop := t ∈ all ∧ b.template? = some t.id

/-- The references from a block lead through these blocks, none of them repeatable, and end. -/
inductive Chained (all : List Block) : Block → List Block → Prop where
  | stop {b : Block} : b.template? = none → Chained all b []
  | step {b t : Block} {ts : List Block} :
      Names all b t → t.repeatable = false → Chained all t ts → Chained all b (t :: ts)

/-- The chain goes on from a path without being refused: it comes to no id twice, and is not longer
than the limit. -/
structure FitsBehind (limit : Int) (path : List String) (ts : List Block) : Prop where
  fresh : ∀ t ∈ ts, t.id ∉ path
  distinct : (ts.map Block.id).Nodup
  short : ts ≠ [] → ((path.length + ts.length : Nat) : Int) ≤ limit + 1

/-! ## Blocks and their ids -/

section Ids

variable {all : List Block} {b b' t t' : Block}

theorem eq_of_id (hnd : (all.map Block.id).Nodup) (hb : b ∈ all) (hb' : b' ∈ all)
    (h : b.id = b'.id) : b = b' :=
  List.inj_on_of_nodup_map hnd hb hb' h

/-- Where ids are distinct, whatever has an id is found by it. -/
theorem find?_id {α : Type} {id : α → String} {xs : List α} {x : α} (hnd : (xs.map id).Nodup)
    (hx : x ∈ xs) : xs.find? (fun y => id y == id x) = some x := by
  cases hfind : xs.find? (fun y => id y == id x) with
  | none => exact absurd (List.find?_eq_none.mp hfind x hx) (by simp)
  | some y =>
      have hid : id y = id x := by simpa using List.find?_some hfind
      rw [List.inj_on_of_nodup_map hnd (List.mem_of_find?_eq_some hfind) hx hid]

theorem target_of_mem (hnd : (all.map Block.id).Nodup) (ht : t ∈ all)
    (hrep : t.repeatable = false) (referencing : String) :
    Repeatable.target all t.id referencing = .ok t := by
  rw [Repeatable.target, find?_id hnd ht]
  dsimp only
  rw [hrep, if_neg Bool.false_ne_true]

theorem target_cases {ref referencing : String}
    (h : Repeatable.target all ref referencing = .ok t) :
    t ∈ all ∧ t.id = ref ∧ t.repeatable = false := by
  unfold Repeatable.target at h
  split at h
  · cases h
  · rename_i u hfind
    split at h
    · cases h
    · rename_i hrep
      cases h
      exact ⟨List.mem_of_find?_eq_some hfind, by simpa using List.find?_some hfind,
        by simpa using hrep⟩

/-- A block that names none ends the chain. -/
theorem not_names_of_end (hb : b.template? = none) : ¬Names all b t := by
  rintro ⟨-, href⟩
  rw [hb] at href
  cases href

theorem Names.unique (hnd : (all.map Block.id).Nodup) (h : Names all b t) (h' : Names all b t') :
    t = t' :=
  eq_of_id hnd h.1 h'.1 (Option.some.inj (h.2.symm.trans h'.2))

end Ids

/-! ## Chains -/

section Chains

variable {all : List Block} {b t : Block} {ts : List Block}

/-- **There is one chain from a block, at most.** -/
theorem Chained.unique (hnd : (all.map Block.id).Nodup) {ts' : List Block} (h : Chained all b ts)
    (h' : Chained all b ts') : ts = ts' := by
  induction h generalizing ts' with
  | stop hb =>
      cases h' with
      | stop _ => rfl
      | step hname _ _ => exact absurd hname (not_names_of_end hb)
  | step hname _ _ ih =>
      cases h' with
      | stop hb => exact absurd hname (not_names_of_end hb)
      | step hname' _ h' =>
          obtain rfl := hname.unique hnd hname'
          rw [ih h']

/-- The chain of a block that names a template is the template, then the chain from there. -/
theorem Chained.of_named {ref : String} (h : Chained all b ts) (href : b.template? = some ref) :
    ∃ t rest, ts = t :: rest ∧ Names all b t ∧ t.repeatable = false ∧ Chained all t rest := by
  cases h with
  | stop hb => rw [hb] at href; cases href
  | step hname hrep hrest => exact ⟨_, _, rfl, hname, hrep, hrest⟩

theorem Chained.subset (h : Chained all b ts) : ∀ t ∈ ts, t ∈ all := by
  induction h with
  | stop _ => exact List.forall_mem_nil _
  | step hname _ _ ih => exact List.forall_mem_cons.mpr ⟨hname.1, ih⟩

theorem Chained.not_repeatable (h : Chained all b ts) : ∀ t ∈ ts, t.repeatable = false := by
  induction h with
  | stop _ => exact List.forall_mem_nil _
  | step _ hrep _ ih => exact List.forall_mem_cons.mpr ⟨hrep, ih⟩

/-- A chain depends on which blocks there are, not on their order. -/
theorem Chained.mono {all' : List Block} (hsub : all ⊆ all') (h : Chained all b ts) :
    Chained all' b ts := by
  induction h with
  | stop hb => exact .stop hb
  | step hname hrep _ ih => exact .step ⟨hsub hname.1, hname.2⟩ hrep ih

/-- **On the chain are the blocks that the references lead to.** -/
theorem Chained.mem_iff (hnd : (all.map Block.id).Nodup) (h : Chained all b ts) :
    t ∈ ts ↔ Relation.TransGen (Names all) b t := by
  induction h with
  | stop hb =>
      refine iff_of_false List.not_mem_nil fun hlead => ?_
      obtain ⟨u, hname, -⟩ := Relation.TransGen.head'_iff.mp hlead
      exact not_names_of_end hb hname
  | @step b u ts hname _ _ ih =>
      rw [List.mem_cons, ih]
      constructor
      · rintro (rfl | hlead)
        · exact .single hname
        · exact .head hname hlead
      · intro hlead
        obtain ⟨u', hname', hrest⟩ := Relation.TransGen.head'_iff.mp hlead
        obtain rfl := hname.unique hnd hname'
        exact Relation.reflTransGen_iff_eq_or_transGen.mp hrest

theorem fitsBehind_nil (limit : Int) (path : List String) : FitsBehind limit path [] :=
  ⟨List.forall_mem_nil _, List.nodup_nil, fun h => absurd rfl h⟩

/-- A chain goes on by one block, and from there with the block's id on the path. -/
theorem fitsBehind_cons_iff {limit : Int} {path : List String} :
    FitsBehind limit path (t :: ts) ↔
      t.id ∉ path ∧ (path.length : Int) ≤ limit ∧ FitsBehind limit (t.id :: path) ts := by
  constructor
  · rintro ⟨hfresh, hnd, hshort⟩
    obtain ⟨ht, hts⟩ := List.forall_mem_cons.mp hfresh
    obtain ⟨hnew, hnd⟩ := List.nodup_cons.mp hnd
    have hlength := hshort (List.cons_ne_nil _ _)
    rw [List.length_cons] at hlength
    refine ⟨ht, by omega, fun u hu hmem => ?_, hnd, fun _ => ?_⟩
    · rcases List.mem_cons.mp hmem with heq | hmem
      · exact hnew (heq ▸ List.mem_map_of_mem hu)
      · exact hts u hu hmem
    · rw [List.length_cons]
      omega
  · rintro ⟨ht, hroom, hfresh, hnd, hshort⟩
    refine ⟨List.forall_mem_cons.mpr ⟨ht, fun u hu hmem => ?_⟩, List.nodup_cons.mpr ⟨?_, hnd⟩,
      fun _ => ?_⟩
    · exact hfresh u hu (List.mem_cons_of_mem _ hmem)
    · intro hmem
      obtain ⟨u, hu, heq⟩ := List.mem_map.mp hmem
      exact hfresh u hu (heq ▸ List.mem_cons_self ..)
    · cases ts with
      | nil => rw [List.length_singleton]; omega
      | cons u ts =>
          have hlength := hshort (List.cons_ne_nil _ _)
          simp only [List.length_cons] at hlength ⊢
          omega

/-- Following the references from a block gives the chain, if it fits behind the path. -/
theorem chain_eq_ok_iff (hnd : (all.map Block.id).Nodup) {limit : Int} {path : List String} :
    Repeatable.chain all limit path b = .ok ts ↔ Chained all b ts ∧ FitsBehind limit path ts := by
  constructor
  · intro h
    fun_induction Repeatable.chain all limit path b generalizing ts with
    | case1 path b hnone =>
        cases h
        exact ⟨.stop hnone, fitsBehind_nil _ _⟩
    | case2 => cases h
    | case3 => cases h
    | case4 path b ref href hpath hroom ih =>
        obtain ⟨t, ht, hrest⟩ := bind_eq_ok.mp h
        obtain ⟨rest, hchain, heq⟩ := bind_eq_ok.mp hrest
        cases heq
        obtain ⟨hmem, rfl, hrep⟩ := target_cases ht
        obtain ⟨hchained, hfits⟩ := ih t hchain
        exact ⟨.step ⟨hmem, href⟩ hrep hchained,
          fitsBehind_cons_iff.mpr ⟨by simpa using hpath, Int.not_lt.mp hroom, hfits⟩⟩
  · rintro ⟨hchained, hfits⟩
    induction hchained generalizing path with
    | stop hb => exact chain_end hb
    | @step b t ts hname hrep _ ih =>
        obtain ⟨hnew, hroom, hfits⟩ := fitsBehind_cons_iff.mp hfits
        rw [chain_step hname.2 (by simpa using hnew) hroom (target_of_mem hnd hname.1 hrep _),
          ih hfits]
        rfl

/-- What a block takes over is its chain, and nothing if it is a popin. -/
theorem templates_eq_ok_iff (hnd : (all.map Block.id).Nodup) {limit : Int} :
    Repeatable.templates all limit b = .ok ts ↔
      if b.popin then ts = [] else Chained all b ts ∧ FitsBehind limit [b.id] ts := by
  unfold Repeatable.templates
  cases b.popin with
  | true =>
      rw [if_pos rfl, if_pos rfl, Except.ok.injEq]
      exact eq_comm
  | false => exact chain_eq_ok_iff hnd

end Chains

/-! ## All blocks -/

/-- The blocks are expanded when the chain of each is there, each with its own and the same blocks
kept as templates. -/
theorem resolveRepeatables_eq_ok_iff {limit : Int} {bs out : List Block} :
    resolveRepeatables limit bs = .ok out ↔
      ∃ ts : Block → List Block, (∀ b ∈ bs, Repeatable.templates bs limit b = .ok (ts b))
        ∧ out = bs.map fun b =>
            Repeatable.expand ((bs.flatMap ts).map Block.id) b (ts b) := by
  have hzip : ∀ ts : Block → List Block, (∀ b ∈ bs, Repeatable.templates bs limit b = .ok (ts b)) →
      resolveRepeatables limit bs =
        .ok (bs.map fun b => Repeatable.expand ((bs.flatMap ts).map Block.id) b (ts b)) := by
    intro ts hts
    rw [resolveRepeatables, mapM_ok_of_forall hts]
    show Except.ok _ = _
    rw [← List.flatMap_def, List.zipWith_map_right, List.zipWith_self]
  constructor
  · intro h
    obtain ⟨chains, hchains, -⟩ := bind_eq_ok.mp h
    have hts : ∀ b ∈ bs, Repeatable.templates bs limit b =
        .ok ((Repeatable.templates bs limit b).toOption.getD []) := by
      intro b hb
      obtain ⟨ts, -, hts⟩ := exists_mem_of_mapM hchains hb
      rw [hts]
      rfl
    rw [hzip _ hts] at h
    exact ⟨_, hts, (Except.ok.inj h).symm⟩
  · rintro ⟨ts, hts, rfl⟩
    exact hzip ts hts

/-- Nothing but a chain that is refused keeps blocks from being expanded. -/
theorem resolveRepeatables_ok {limit : Int} {bs : List Block}
    (h : ∀ b ∈ bs, ∃ ts, Repeatable.templates bs limit b = .ok ts) :
    ∃ out, resolveRepeatables limit bs = .ok out := by
  choose! ts hts using h
  exact ⟨_, resolveRepeatables_eq_ok_iff.mpr ⟨ts, hts, rfl⟩⟩

/-- What expanding templates does to each of some blocks. -/
structure Composes (bs : List Block) (expanded : Block → Block) : Prop where
  /-- A block that takes nothing over keeps its fields. -/
  own : ∀ b ∈ bs, b.popin = true ∨ b.template? = none → (expanded b).fields = b.fields
  /-- Any other has its own fields, then those of its template once that is expanded. -/
  template : ∀ b ∈ bs, b.popin = false → ∀ ref, b.template? = some ref →
    ∃ t ∈ bs, t.id = ref ∧ t.repeatable = false
      ∧ (t.popin = false →
        (expanded b).fields = b.fields ++
          if b.repeatable then (expanded t).fields.map (Repeatable.intoGroup b.id)
          else (expanded t).fields)
  /-- A block is kept as a template when it was before, or when references lead to it from a block
  that is not a popin. -/
  templateOnly : ∀ b ∈ bs, (expanded b).templateOnly = true ↔
    b.templateOnly = true ∨ ∃ a ∈ bs, a.popin = false ∧ Relation.TransGen (Names bs) a b

section Expanded

variable {limit : Int} {bs : List Block} {ts : Block → List Block}
  (hnd : (bs.map Block.id).Nodup)
  (hts : ∀ b ∈ bs, Repeatable.templates bs limit b = .ok (ts b))

include hnd hts

theorem chained_of_templates {b : Block} (hb : b ∈ bs) (hpop : b.popin = false) :
    Chained bs b (ts b) := by
  have h := (templates_eq_ok_iff hnd).mp (hts b hb)
  rw [hpop, if_neg Bool.false_ne_true] at h
  exact h.1

theorem templates_of_popin {b : Block} (hb : b ∈ bs) (hpop : b.popin = true) : ts b = [] := by
  have h := (templates_eq_ok_iff hnd).mp (hts b hb)
  rwa [hpop, if_pos rfl] at h

/-- The blocks that are kept as templates are those that references lead to. -/
theorem mem_used_iff {b : Block} (hb : b ∈ bs) :
    b.id ∈ (bs.flatMap ts).map Block.id ↔
      ∃ a ∈ bs, a.popin = false ∧ Relation.TransGen (Names bs) a b := by
  constructor
  · intro hid
    obtain ⟨t, ht, heq⟩ := List.mem_map.mp hid
    obtain ⟨a, ha, ht⟩ := List.mem_flatMap.mp ht
    cases hpop : a.popin with
    | true =>
        rw [templates_of_popin hnd hts ha hpop] at ht
        exact absurd ht List.not_mem_nil
    | false =>
        have hchain := chained_of_templates hnd hts ha hpop
        obtain rfl := eq_of_id hnd (hchain.subset t ht) hb heq
        exact ⟨a, ha, hpop, (hchain.mem_iff hnd).mp ht⟩
  · rintro ⟨a, ha, hpop, hlead⟩
    have hmem := ((chained_of_templates hnd hts ha hpop).mem_iff hnd).mpr hlead
    exact List.mem_map_of_mem (List.mem_flatMap.mpr ⟨a, ha, hmem⟩)

theorem composes : Composes bs fun b =>
    Repeatable.expand ((bs.flatMap ts).map Block.id) b (ts b) where
  own b hb hkeep := by
    have hnone : ts b = [] := by
      cases hpop : b.popin with
      | true => exact templates_of_popin hnd hts hb hpop
      | false =>
          rw [hpop] at hkeep
          exact (chained_of_templates hnd hts hb hpop).unique hnd
            (.stop (hkeep.resolve_left Bool.false_ne_true))
    simp [Repeatable.expand, Repeatable.takenOver, hnone]
  template b hb hpop ref href := by
    have hchain := chained_of_templates hnd hts hb hpop
    obtain ⟨t, rest, heq, hname, hrep, hrest⟩ := hchain.of_named href
    refine ⟨t, hname.1, Option.some.inj (hname.2.symm.trans href), hrep, fun hpop' => ?_⟩
    -- the chain of the template is the rest of the chain
    have htail : ts t = rest := (chained_of_templates hnd hts hname.1 hpop').unique hnd hrest
    simp only [Repeatable.expand, Repeatable.takenOver, heq, hrep, htail, List.flatMap_cons]
    simp
  templateOnly b hb := by
    show (b.templateOnly || List.contains _ b.id) = true ↔ _
    rw [Bool.or_eq_true, List.contains_iff_mem, mem_used_iff hnd hts hb]

/-- **Blocks in another order are expanded alike.** -/
theorem resolveRepeatables_perm {bs' : List Block} (h : bs'.Perm bs) :
    resolveRepeatables limit bs' =
      .ok (bs'.map fun b => Repeatable.expand ((bs.flatMap ts).map Block.id) b (ts b)) := by
  have hnd' : (bs'.map Block.id).Nodup := (h.map Block.id).nodup_iff.mpr hnd
  refine resolveRepeatables_eq_ok_iff.mpr ⟨ts, fun b hb => ?_, ?_⟩
  · have hb' := (templates_eq_ok_iff hnd).mp (hts b (h.mem_iff.mp hb))
    refine (templates_eq_ok_iff hnd').mpr ?_
    split
    · rename_i hpop
      rwa [if_pos hpop] at hb'
    · rename_i hpop
      rw [if_neg hpop] at hb'
      exact ⟨hb'.1.mono h.symm.subset, hb'.2⟩
  · refine List.map_congr_left fun b _ => ?_
    have hused : ((bs'.flatMap ts).map Block.id).contains b.id =
        ((bs.flatMap ts).map Block.id).contains b.id := by
      rw [Bool.eq_iff_iff, List.contains_iff_mem, List.contains_iff_mem]
      exact ((h.flatMap_right ts).map Block.id).mem_iff
    rw [Repeatable.expand, Repeatable.expand, hused]

end Expanded

/--
**Templates compose, whatever the order of the blocks.**

Blocks with distinct ids whose templates are expanded are each expanded in one way, which is the
same for any order of the blocks: those that take nothing over keep their fields, and those that
take over a template have its fields behind their own as it has them once it is expanded, in a
repeatable block as members of groups. Kept as templates are those blocks that were before, and
those that references lead to from a block that is not a popin.
-/
theorem templates_compose {limit : Int} {bs out : List Block} (hnd : (bs.map Block.id).Nodup)
    (h : resolveRepeatables limit bs = .ok out) :
    ∃ expanded : Block → Block, out = bs.map expanded ∧ Composes bs expanded
      ∧ ∀ bs' : List Block, bs'.Perm bs →
        resolveRepeatables limit bs' = .ok (bs'.map expanded) := by
  obtain ⟨ts, hts, rfl⟩ := resolveRepeatables_eq_ok_iff.mp h
  exact ⟨_, rfl, composes hnd hts, fun _ hperm => resolveRepeatables_perm hnd hts hperm⟩

/-! ## Rows made of two templates -/

/-- Rows have a note of their own, and take over all that an entry has. -/
def rowsBlock : Block := rowsOf "rows" "entry" [textField "note"]

/-- An entry has a phone, which belongs to a group of its own, and what every entry has. -/
def entryBlock : Block :=
  { fieldBlock "entry" [groupField "phone" "phones"] with repeatableBlockRef := some "base" }

def baseBlock : Block := fieldBlock "base" [textField "name"]

/-- A dialog that names a template takes nothing over, and keeps nothing as a template. -/
def entryDialog : Block := { popinBlock "dialog" with repeatableBlockRef := some "entry" }

def rowsBlocks : List Block := [entryDialog, baseBlock, rowsBlock, entryBlock]

/-- The blocks when their templates are expanded. -/
def expandedRows : List Block :=
  [entryDialog, { baseBlock with templateOnly := true },
    { rowsBlock with
      fields := [textField "note", groupField "phones.phone" "phones",
        groupField "rows.name" "rows"]
      repeatableBlockRef := none },
    { entryBlock with
      fields := [groupField "phone" "phones", textField "name"]
      repeatableBlockRef := none
      templateOnly := true }]

theorem templates_compose_rows :
    (rowsBlocks.map Block.id).Nodup
      ∧ resolveRepeatables 2 rowsBlocks = .ok expandedRows
      ∧ ∃ expanded : Block → Block, expandedRows = rowsBlocks.map expanded
        ∧ Composes rowsBlocks expanded
        ∧ resolveRepeatables 2 rowsBlocks.reverse = .ok expandedRows.reverse := by
  have hnd : (rowsBlocks.map Block.id).Nodup := by decide
  have hentry : ∀ path : List String, path.contains "base" = false → (path.length : Int) ≤ 2 →
      Repeatable.chain rowsBlocks 2 path entryBlock = .ok [baseBlock] := by
    intro path hpath hroom
    rw [chain_step (t := baseBlock) rfl hpath hroom rfl, chain_end rfl]
    rfl
  have hrows : Repeatable.templates rowsBlocks 2 rowsBlock = .ok [entryBlock, baseBlock] := by
    show Repeatable.chain _ _ _ _ = _
    rw [chain_step (t := entryBlock) rfl rfl (by decide) rfl, hentry _ rfl (by decide)]
    rfl
  have hchains : rowsBlocks.mapM (Repeatable.templates rowsBlocks 2) =
      .ok [[], [], [entryBlock, baseBlock], [baseBlock]] := by
    show List.mapM _ [entryDialog, baseBlock, rowsBlock, entryBlock] = _
    simp only [List.mapM_cons, List.mapM_nil]
    rw [templates_of_resolved _ _ rfl, templates_of_resolved _ _ rfl, hrows,
      show Repeatable.templates rowsBlocks 2 entryBlock = _ from hentry ["entry"] rfl (by decide)]
    rfl
  have hres : resolveRepeatables 2 rowsBlocks = .ok expandedRows := by
    rw [resolveRepeatables, hchains]
    rfl
  obtain ⟨expanded, heq, hcomposes, hperm⟩ := templates_compose hnd hres
  refine ⟨hnd, hres, expanded, heq, hcomposes, ?_⟩
  rw [hperm _ (List.reverse_perm _), heq, List.map_reverse]

end Formwork.Proofs
