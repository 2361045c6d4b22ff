import Formwork.Proofs.Document.Valid
import Formwork.Proofs.Reference.Templates

/-!
# Resolution keeps forms valid

A form is resolved from parts that were read: its own blocks, and those of the sub-forms
that it leads to. Whatever resolution does to a part, it leaves the part one that could
have been read:

* a copy under a suffix has longer ids, and names what the original names;
* a member of a group has a longer id;
* an expanded block has valid fields, since a template is a block among the others.

The ids of blocks are distinct because splicing refuses to repeat one.
-/

namespace Formwork.Proofs

open Formwork

/-! ## Laws -/

theorem field_law_eq_none_iff (f : Field) :
    f.law = none ↔ (f.items.isSome && f.dataSource.isSome) = false := by
  unfold Field.law
  cases f.items.isSome && f.dataSource.isSome <;> simp

theorem block_law_eq_none_iff (b : Block) :
    b.law = none ↔
      ∀ least most, b.minInstances = some least → b.maxInstances = some most → least ≤ most := by
  unfold Block.law
  cases b.minInstances with
  | none => simp
  | some least =>
      cases b.maxInstances with
      | none => simp
      | some most => simp

/-! ## Copies -/

theorem button_law_withSuffix (b : Button) (suffix : String) :
    (b.withSuffix suffix).law = b.law := by
  have htarget : (nonEmpty? (b.withSuffix suffix).popinBlockId).isNone =
      (nonEmpty? b.popinBlockId).isNone := by
    show (nonEmpty? (suffixReference b.popinBlockId suffix)).isNone = _
    rw [nonEmpty?_suffixReference, Option.isNone_map]
  have hitems : ((b.withSuffix suffix).items.getD []).isEmpty = (b.items.getD []).isEmpty := by
    unfold Button.withSuffix
    cases b.items with
    | none => rfl
    | some items => cases items <;> rfl
  have hvariant : (b.withSuffix suffix).variant = b.variant := rfl
  unfold Button.law
  rw [htarget, hitems, hvariant]

theorem field_valid_withSuffix {f : Field} (hf : f.Valid) (suffix : String) :
    (f.withSuffix suffix).Valid where
  id := by
    show f.id ++ suffix ≠ ""
    simp [hf.id]
  validation := hf.validation
  dataSource := hf.dataSource
  button := by
    intro b' hb'
    obtain ⟨b, hb, rfl⟩ := Option.map_eq_some_iff.mp hb'
    rw [button_law_withSuffix]
    exact hf.button b hb
  law := (field_law_eq_none_iff _).mpr ((field_law_eq_none_iff f).mp hf.law)

theorem block_valid_withSuffix {b : Block} (hb : b.Valid) (suffix : String) :
    (b.withSuffix suffix).Valid := by
  unfold Block.withSuffix
  split
  · exact hb
  · refine ⟨?_, ?_, hb.popinLoad, hb.popinSubmit, ?_⟩
    · show b.id ++ suffix ≠ ""
      simp [hb.id]
    · intro f' hf'
      obtain ⟨f, hf, rfl⟩ := List.mem_map.mp hf'
      exact field_valid_withSuffix (hb.fields f hf) suffix
    · exact (block_law_eq_none_iff _).mpr ((block_law_eq_none_iff b).mp hb.law)

/-! ## Splicing -/

/-- Every sub-form that the provider gives was read from a document. -/
def GivesRead {σ : Type} (p : Provider σ) : Prop :=
  ∀ id s f t, p.lookup id s = (.ok (some f), t) → ∃ doc, SubForm.read doc = .ok f

theorem givesRead_nothing {σ : Type} : GivesRead (.nothing : Provider σ) := by
  intro id s f t h
  cases h

theorem Gives.valid {σ : Type} {p : Provider σ} (hp : GivesRead p) {s t : σ} {given : Catalog}
    (h : Gives p s given t) : ∀ entry ∈ given, entry.2.Valid := by
  induction h with
  | nil => exact List.forall_mem_nil _
  | @cons s t u id f rest hlook _ ih =>
      obtain ⟨doc, hdoc⟩ := hp id s f t hlook
      exact List.forall_mem_cons.mpr ⟨yields_subForm doc f hdoc, ih⟩

/-- Blocks without conflicts are spliced into valid blocks, when what is spliced in was read. -/
theorem resolveSubForms_valid {σ : Type} {p : Provider σ} (hp : GivesRead p) {limit : Int}
    {bs out : List Block} {s t : σ} (hbs : ValidBlocks bs)
    (hfree : ∀ b ∈ bs, b.isConflicting = false)
    (h : resolveSubForms p limit bs s = (.ok out, t)) : ValidBlocks out := by
  obtain ⟨catalog, hcol, hout⟩ := resolveSubForms_cases h
  obtain ⟨hgives, -, -⟩ := collectSubForms_gives hcol
  refine ⟨fun b' hb' => ?_, (resolveSubForms_spliced hbs.distinct hfree h).distinct⟩
  obtain ⟨b, suffix, rfl, -, hin⟩ := (resolveSubForms_given hcol hout).mem_cases b' hb'
  refine block_valid_withSuffix ?_ suffix
  rcases hin with hb | ⟨id, f, hget, hb⟩
  · exact hbs.each b hb
  · exact (hgives.valid hp _ (mem_of_get? hget)).blocks.each b hb

/-! ## Expanding templates -/

theorem intoGroup_valid (blockId : String) {f : Field} (hf : f.Valid) :
    (Repeatable.intoGroup blockId f).Valid where
  id := by
    show f.group?.getD blockId ++ "." ++ f.id ≠ ""
    simp
  validation := hf.validation
  dataSource := hf.dataSource
  button := hf.button
  law := (field_law_eq_none_iff _).mpr ((field_law_eq_none_iff f).mp hf.law)

theorem expand_valid (used : List String) {b : Block} {ts : List Block} (hb : b.Valid)
    (hts : ∀ t ∈ ts, t.Valid) : (Repeatable.expand used b ts).Valid := by
  have hover : ∀ f ∈ Repeatable.takenOver b ts, f.Valid := by
    have hfields : ∀ f ∈ ts.flatMap Block.fields, f.Valid := by
      intro f hf
      obtain ⟨t, ht, hf⟩ := List.mem_flatMap.mp hf
      exact (hts t ht).fields f hf
    unfold Repeatable.takenOver
    dsimp only
    split
    · exact List.forall_mem_map.mpr fun f hf => intoGroup_valid b.id (hfields f hf)
    · exact hfields
  refine ⟨hb.id, ?_, hb.popinLoad, hb.popinSubmit, ?_⟩
  · exact List.forall_mem_append.mpr ⟨hb.fields, hover⟩
  · exact (block_law_eq_none_iff _).mpr ((block_law_eq_none_iff b).mp hb.law)

/-- The templates on a chain are blocks among the others. -/
theorem chain_subset {all : List Block} {limit : Int} {path : List String} {b : Block}
    {ts : List Block} (h : Repeatable.chain all limit path b = .ok ts) : ∀ t ∈ ts, t ∈ all := by
  fun_induction Repeatable.chain all limit path b generalizing ts with
  | case1 path b hnone =>
      cases h
      exact List.forall_mem_nil _
  | case2 => cases h
  | case3 => cases h
  | case4 path b ref href hpath hroom ih =>
      obtain ⟨t, ht, hrest⟩ := bind_eq_ok.mp h
      obtain ⟨rest, hchain, heq⟩ := bind_eq_ok.mp hrest
      cases heq
      exact List.forall_mem_cons.mpr ⟨(target_cases ht).1, ih t hchain⟩

theorem templates_subset {all : List Block} {limit : Int} {b : Block} {ts : List Block}
    (h : Repeatable.templates all limit b = .ok ts) : ∀ t ∈ ts, t ∈ all := by
  unfold Repeatable.templates at h
  split at h
  · cases h
    exact List.forall_mem_nil _
  · exact chain_subset h

theorem resolveRepeatables_valid {limit : Int} {bs out : List Block} (hbs : ValidBlocks bs)
    (h : resolveRepeatables limit bs = .ok out) : ValidBlocks out := by
  obtain ⟨chains, hchains, hout⟩ := bind_eq_ok.mp h
  cases hout
  refine ⟨fun b' hb' => ?_, ?_⟩
  · obtain ⟨b, hb, ts, hts, rfl⟩ := mem_zipWith hb'
    obtain ⟨b₀, -, hts⟩ := mem_mapM hchains hts
    exact expand_valid _ (hbs.each b hb) fun t ht => hbs.each t (templates_subset hts t ht)
  · rw [zipWith_expand_ids _ (mapM_ok_length hchains)]
    exact hbs.distinct

/-! ## Resolution -/

/-- A resolution changes nothing but blocks. -/
theorem resolveFrom_frame {σ : Type} {p : Provider σ} {limit : Int} {f r : Form} {s t : σ}
    (h : f.resolveFrom p limit s = (.ok r, t)) : r = { f with blocks := r.blocks } := by
  obtain ⟨hfree, spliced, hsub, hrep⟩ := resolveFrom_cases h
  rw [resolveFrom_eq_ok hfree hsub hrep, Prod.mk.injEq, Except.ok.injEq] at h
  exact h.1.symm

/-- **A valid form is resolved to a valid one**, when the sub-forms it leads to were read. -/
theorem resolveFrom_valid {σ : Type} {p : Provider σ} (hp : GivesRead p) {limit : Int}
    {f r : Form} {s t : σ} (hf : f.Valid) (h : f.resolveFrom p limit s = (.ok r, t)) :
    r.Valid := by
  obtain ⟨hfree, spliced, hsub, hrep⟩ := resolveFrom_cases h
  have hspliced := resolveSubForms_valid hp hf.blocks hfree hsub
  refine ⟨resolveRepeatables_valid hspliced hrep, ?_⟩
  rw [resolveFrom_frame h]
  exact hf.submission

/-- A resolved form has no conflicts, and nothing left to resolve outside popins. -/
theorem resolveFrom_resolved {σ : Type} {p : Provider σ} {limit : Int} {f r : Form} {s t : σ}
    (hnd : (f.blocks.map Block.id).Nodup) (h : f.resolveFrom p limit s = (.ok r, t)) :
    ∀ b ∈ r.blocks, b.isConflicting = false ∧ b.isUnresolved = false := by
  obtain ⟨hfree, spliced, hsub, hrep⟩ := resolveFrom_cases h
  obtain ⟨-, hfree', hfinal⟩ := resolveSubForms_spliced hnd hfree hsub
  obtain ⟨used, chains, -, hout⟩ := resolveRepeatables_cases hrep
  rw [hout]
  intro b' hb'
  obtain ⟨b, hb, ts, rfl⟩ := mem_zipWith_expand hb'
  exact ⟨expand_isConflicting used b ts (hfree' b hb), expand_isUnresolved used b ts (hfinal b hb)⟩

end Formwork.Proofs
