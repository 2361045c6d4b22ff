import Formwork.Proofs.Reference.Ahead
import Formwork.Proofs.Reference.Occurrence
import Formwork.Proofs.Reference.Validity

/-!
# Sub-forms prepared before they are used

A sub-form may be prepared: its own templates are expanded before any form uses it
(`Prepared`). Expanding templates changes nothing that splicing looks at, so a form that is
resolved with prepared sub-forms has the same blocks in the same places, and the templates
that are left are expanded to the same, as far as they are not expanded yet.

One thing comes out differently. A member of a group has an id of two parts, the group's and
its own. Where a block takes its templates over after it was copied, both parts have the
suffix of the use. Where it did before, the copy has it behind the id as a whole, once, while
the name of the group has it still (`Misplaced`). So with prepared sub-forms a form is
resolved to itself as it would be without, exactly when no use of a prepared sub-form that
has such members is under a suffix.
-/

namespace Formwork.Proofs

open Formwork

/-! ## Prepared sub-forms -/

/-- A sub-form, whose blocks have distinct ids as in every document, with its own templates
expanded. No block that is taken over stands for another sub-form, so all that its blocks take over
is in the sub-form. -/
structure Prepared (f f' : SubForm) : Prop where
  named : ∀ b ∈ f.blocks, b.id ≠ ""
  distinct : (f.blocks.map Block.id).Nodup
  frame : f' = { f with blocks := f'.blocks }
  resolved : ∃ limit, resolveRepeatables limit f.blocks = .ok f'.blocks
  within : ∀ b ∈ f.blocks, b.popin = false → ∀ ts, Chained f.blocks b ts →
    ∀ t ∈ ts, t.expansion? = none

/-- A repeatable block of a sub-form takes fields over. -/
def TakesMembers (f : SubForm) : Prop :=
  ∃ b ∈ f.blocks, b.popin = false ∧ b.repeatable = true
    ∧ ∃ ts, Chained f.blocks b ts ∧ ts.flatMap Block.fields ≠ []

/-- The provider with its answers prepared. -/
def prepared {σ : Type} (p : Provider σ) (prep : SubForm → SubForm) : Provider σ where
  lookup id s := ((p.lookup id s).1.map (Option.map prep), (p.lookup id s).2)
  available := p.available
  supply := p.supply

/-- One block stands where another does: it is found under the same id, and gives way to the same
sub-form under the same suffix. -/
structure StandsAs (b b' : Block) : Prop where
  id : b'.id = b.id
  expansion : b'.expansion? = b.expansion?
  instanceSuffix : b'.instanceSuffix = b.instanceSuffix

theorem StandsAs.refl (b : Block) : StandsAs b b := ⟨rfl, rfl, rfl⟩

/-- The blocks of sub-forms are exchanged one by one when these are prepared. -/
structure Exchanges (prep : SubForm → SubForm) (swap : SubForm → Block → Block) : Prop where
  blocks : ∀ f, (prep f).blocks = f.blocks.map (swap f)
  stands : ∀ f, ∀ b, StandsAs b (swap f b)
  free : ∀ f, ∀ b, b.isConflicting = false → (swap f b).isConflicting = false

section Exchange

variable {σ : Type} {p : Provider σ} {prep : SubForm → SubForm}
  {swap : SubForm → Block → Block} (hex : Exchanges prep swap)

/-- The catalog with its sub-forms prepared. -/
def prepareAll (prep : SubForm → SubForm) (catalog : Catalog) : Catalog :=
  catalog.map fun e => (e.1, prep e.2)

theorem get?_prepareAll (catalog : Catalog) (id : String) :
    Ordered.get? (prepareAll prep catalog) id = (Ordered.get? catalog id).map prep :=
  get?_map prep catalog id

include hex

theorem Exchanges.expansionIds (f : SubForm) :
    expansionIds (prep f).blocks = expansionIds f.blocks := by
  have hswap : ∀ b, (swap f b).expansion? = b.expansion? := fun b => (hex.stands f b).expansion
  rw [hex.blocks, Formwork.expansionIds, Formwork.expansionIds, List.filterMap_map]
  exact List.filterMap_congr fun b _ => hswap b

/-- Prepared sub-forms are collected as the others are. -/
theorem Exchanges.run {fuel : Nat} {c : Collection} {s t : σ} {catalog : Catalog}
    (h : Collection.run p fuel c s = (.ok catalog, t)) :
    Collection.run (prepared p prep) fuel ⟨c.queue, prepareAll prep c.fetched⟩ s =
      (.ok (prepareAll prep catalog), t) := by
  induction fuel generalizing c s with
  | zero =>
      cases h
      rfl
  | succ fuel ih =>
      have hpending : (Collection.mk c.queue (prepareAll prep c.fetched)).pending = c.pending := by
        unfold Collection.pending
        congr 1
        funext id
        rw [Ordered.has, Ordered.has, get?_prepareAll, Option.isSome_map]
      rcases run_succ_cases h with ⟨hpend, rfl, rfl⟩ | ⟨id, rest, f, s', hpend, hlook, hfree, hrun⟩
      · rw [Collection.run, hpending, hpend]
      · have hfree' : checkConflicts (prep f).blocks = .ok () := by
          rw [checkConflicts_eq_ok, hex.blocks]
          exact List.forall_mem_map.mpr fun b hb => hex.free f b (hfree b hb)
        have hadd : (Collection.mk c.queue (prepareAll prep c.fetched)).add id rest (prep f) =
            ⟨(c.add id rest f).queue, prepareAll prep (c.add id rest f).fetched⟩ := by
          rw [Collection.add, Collection.add, hex.expansionIds f]
          exact congrArg _ (insert_map prep c.fetched id f)
        have hlook' : (prepared p prep).lookup id s = (.ok (some (prep f)), s') := by
          simp only [prepared, hlook]
          rfl
        rw [Collection.run, hpending, hpend]
        dsimp only
        rw [hlook']
        dsimp only
        rw [hfree']
        dsimp only
        rw [hadd]
        exact ih hrun

theorem Exchanges.collect {bs : List Block} {s t : σ} {catalog : Catalog}
    (h : collectSubForms p bs s = (.ok catalog, t)) :
    collectSubForms (prepared p prep) bs s = (.ok (prepareAll prep catalog), t) :=
  hex.run h

end Exchange

/-! ## The same places -/

/-- Two tasks enter blocks that stand for the same under one suffix, or both leave. -/
inductive SameTask : SpliceTask → SpliceTask → Prop where
  | leave : SameTask .leave .leave
  | enter {b b' : Block} {suffix : String} :
      StandsAs b b' → SameTask (.enter b suffix) (.enter b' suffix)

theorem sameTask_enterAll {swap : Block → Block} (h : ∀ b, StandsAs b (swap b)) (bs : List Block)
    (suffix : String) : List.Forall₂ SameTask (Splice.enterAll bs suffix)
      (Splice.enterAll (bs.map swap) suffix) := by
  unfold Splice.enterAll
  rw [List.map_map, List.forall₂_map_left_iff, List.forall₂_map_right_iff, List.forall₂_same]
  exact fun b _ => .enter (h b)

/-- **A run that ends well does so with prepared sub-forms**, and puts out blocks of the same ids.
-/
theorem Exchanges.splice {prep : SubForm → SubForm} {swap : SubForm → Block → Block}
    (hex : Exchanges prep swap) {catalog : Catalog} {limit : Int} {path : List String}
    {tasks tasks' : List SpliceTask} {out : List Block}
    (h : Splice.run catalog limit path tasks = .ok out)
    (hsame : List.Forall₂ SameTask tasks tasks') :
    ∃ out', Splice.run (prepareAll prep catalog) limit path tasks' = .ok out'
      ∧ out'.map Block.id = out.map Block.id := by
  fun_induction Splice.run catalog limit path tasks generalizing tasks' out with
  | case1 path =>
      cases hsame
      cases h
      exact ⟨[], by rw [Splice.run], rfl⟩
  | case2 path rest ih =>
      cases hsame with
      | cons htask hsame =>
          cases htask
          rw [run_leave]
          exact ih h hsame
  | case3 path b suffix rest hb ih =>
      cases hsame with
      | cons htask hsame =>
          cases htask with
          | @enter _ b' _ hstands =>
              obtain ⟨out, hrun, rfl⟩ := map_eq_ok.mp h
              obtain ⟨out', hrun', hids⟩ := ih hrun hsame
              refine ⟨b'.withSuffix suffix :: out', ?_, ?_⟩
              · rw [run_keep (hstands.expansion.trans hb), hrun']
                rfl
              · rw [List.map_cons, List.map_cons, hids, withSuffix_id, withSuffix_id, hstands.id]
  | case4 => cases h
  | case5 => cases h
  | case6 => cases h
  | case7 path b suffix rest id hid hpath hroom f hget ih =>
      cases hsame with
      | cons htask hsame =>
          cases htask with
          | @enter _ b' _ hstands =>
              have hget' : Ordered.get? (prepareAll prep catalog) id = some (prep f) := by
                rw [get?_prepareAll, hget, Option.map_some]
              rw [run_splice (hstands.expansion.trans hid) (by simpa using hpath)
                (Int.not_le.mp hroom) hget', hstands.instanceSuffix, hex.blocks]
              exact ih h
                (List.rel_append (sameTask_enterAll (hex.stands f) _ _) (.cons .leave hsame))

/-! ## Members of groups under suffixes -/

/-- The id of a member has a suffix behind it as a whole, and not behind each of its parts. -/
def Misplaced (g g' : Field) : Prop :=
  ∃ group id suffix, suffix ≠ "" ∧ g.repeatableGroupId = some (group ++ suffix)
    ∧ g.id = group ++ suffix ++ "." ++ (id ++ suffix)
    ∧ g' = { g with id := group ++ "." ++ (id ++ suffix) }

/-- Two blocks are the same but for ids of members with misplaced suffixes. -/
structure SameButMembers (b b' : Block) : Prop where
  frame : b' = { b with fields := b'.fields }
  fields : List.Forall₂ (fun g g' => g' = g ∨ Misplaced g g') b.fields b'.fields

theorem SameButMembers.refl (b : Block) : SameButMembers b b :=
  ⟨rfl, List.forall₂_same.mpr fun _ _ => .inl rfl⟩

section Members

variable {blockId : String} (hid : blockId ≠ "") (f : Field) (suffix : String)

theorem group_withSuffix : (f.withSuffix suffix).group?.getD (blockId ++ suffix) =
    f.group?.getD blockId ++ suffix := by
  have hgroup : (f.withSuffix suffix).group? = f.group?.map (· ++ suffix) :=
    nonEmpty?_suffixReference f.repeatableGroupId suffix
  rw [hgroup]
  cases f.group? <;> rfl

include hid

/-- The copy of a member has the group's suffix, but one suffix only in its id. -/
theorem intoGroup_withSuffix : (Repeatable.intoGroup blockId f).withSuffix suffix =
    { Repeatable.intoGroup (blockId ++ suffix) (f.withSuffix suffix) with
      id := f.group?.getD blockId ++ "." ++ (f.id ++ suffix) } := by
  have hgroup : f.group?.getD blockId ≠ "" := by
    cases hgiven : f.group? with
    | none => exact hid
    | some group => simpa using (Option.filter_eq_some_iff.mp hgiven).2
  have href : suffixReference (some (f.group?.getD blockId)) suffix =
      some (f.group?.getD blockId ++ suffix) :=
    suffixReference_of_nonEmpty suffix
      (Option.filter_eq_some_iff.mpr ⟨rfl, by simpa using hgroup⟩)
  have hwhole : f.group?.getD blockId ++ "." ++ f.id ++ suffix =
      f.group?.getD blockId ++ "." ++ (f.id ++ suffix) := String.append_assoc ..
  unfold Repeatable.intoGroup
  rw [group_withSuffix]
  unfold Field.withSuffix
  dsimp only
  rw [href, hwhole]

/-- **Only the empty suffix comes out the same.** -/
theorem intoGroup_withSuffix_eq_iff : (Repeatable.intoGroup blockId f).withSuffix suffix =
    Repeatable.intoGroup (blockId ++ suffix) (f.withSuffix suffix) ↔ suffix = "" := by
  constructor
  · intro heq
    -- the two ids differ in length by the suffix of the group
    have hids := congrArg (fun g : Field => g.id.length) heq
    rw [intoGroup_withSuffix hid] at hids
    have hlong : (Repeatable.intoGroup (blockId ++ suffix) (f.withSuffix suffix)).id =
        f.group?.getD blockId ++ suffix ++ "." ++ (f.id ++ suffix) := by
      show (f.withSuffix suffix).group?.getD _ ++ "." ++ _ = _
      rw [group_withSuffix]
      rfl
    dsimp only at hids
    rw [hlong] at hids
    simp only [String.length_append] at hids
    exact String.length_eq_zero_iff.mp (by omega)
  · rintro rfl
    rw [field_withSuffix_empty, field_withSuffix_empty, String.append_empty]

theorem misplaced_intoGroup (hsuffix : suffix ≠ "") :
    Misplaced (Repeatable.intoGroup (blockId ++ suffix) (f.withSuffix suffix))
      ((Repeatable.intoGroup blockId f).withSuffix suffix) := by
  refine ⟨f.group?.getD blockId, f.id, suffix, hsuffix, ?_, ?_, intoGroup_withSuffix hid f suffix⟩
  · exact congrArg some (group_withSuffix f suffix)
  · show (f.withSuffix suffix).group?.getD _ ++ "." ++ _ = _
    rw [group_withSuffix]
    rfl

end Members

section TakenOver

variable {b : Block} (hid : b.id ≠ "") (ts : List Block) (suffix : String)

theorem flatMap_withSuffix : (ts.map fun t => t.withSuffix suffix).flatMap Block.fields =
    (ts.flatMap Block.fields).map fun f => f.withSuffix suffix := by
  rw [List.flatMap_map, List.map_flatMap]
  exact List.flatMap_congr fun t _ => withSuffix_fields suffix t

/-- What the copy of a block takes over of copies. -/
theorem takenOver_withSuffix : Repeatable.takenOver (b.withSuffix suffix)
      (ts.map fun t => t.withSuffix suffix) =
    if b.repeatable then (ts.flatMap Block.fields).map fun f =>
        Repeatable.intoGroup (b.id ++ suffix) (f.withSuffix suffix)
      else (ts.flatMap Block.fields).map fun f => f.withSuffix suffix := by
  rw [Repeatable.takenOver, flatMap_withSuffix, withSuffix_repeatable, withSuffix_id, List.map_map]
  rfl

/-- The copies of what a block takes over. -/
theorem map_takenOver : (Repeatable.takenOver b ts).map (fun f => f.withSuffix suffix) =
    if b.repeatable then (ts.flatMap Block.fields).map fun f =>
        (Repeatable.intoGroup b.id f).withSuffix suffix
      else (ts.flatMap Block.fields).map fun f => f.withSuffix suffix := by
  rw [Repeatable.takenOver]
  cases b.repeatable with
  | true =>
      rw [if_pos rfl, if_pos rfl, List.map_map]
      rfl
  | false => rfl

include hid

theorem takenOver_misplaced : List.Forall₂ (fun g g' => g' = g ∨ Misplaced g g')
    (Repeatable.takenOver (b.withSuffix suffix) (ts.map fun t => t.withSuffix suffix))
    ((Repeatable.takenOver b ts).map fun f => f.withSuffix suffix) := by
  rw [takenOver_withSuffix, map_takenOver]
  cases b.repeatable with
  | false => exact List.forall₂_same.mpr fun _ _ => .inl rfl
  | true =>
      rw [if_pos rfl, if_pos rfl, List.forall₂_map_left_iff, List.forall₂_map_right_iff,
        List.forall₂_same]
      intro f _
      by_cases hsuffix : suffix = ""
      · exact .inl ((intoGroup_withSuffix_eq_iff hid f suffix).mpr hsuffix)
      · exact .inr (misplaced_intoGroup hid f suffix hsuffix)

/-- **Taking over and copying may change places** unless members are taken over under a suffix. -/
theorem takenOver_eq_iff :
    (Repeatable.takenOver b ts).map (fun f => f.withSuffix suffix) =
        Repeatable.takenOver (b.withSuffix suffix) (ts.map fun t => t.withSuffix suffix) ↔
      (b.repeatable = true → ts.flatMap Block.fields ≠ [] → suffix = "") := by
  rw [takenOver_withSuffix, map_takenOver]
  cases b.repeatable with
  | false => exact iff_of_true rfl fun h => absurd h Bool.false_ne_true
  | true =>
      rw [if_pos rfl, if_pos rfl, List.map_inj_left]
      constructor
      · intro heach _ hsome
        obtain ⟨f, hf⟩ := List.exists_mem_of_ne_nil _ hsome
        exact (intoGroup_withSuffix_eq_iff hid f suffix).mp (heach f hf)
      · intro hempty f hf
        exact (intoGroup_withSuffix_eq_iff hid f suffix).mpr
          (hempty rfl (List.ne_nil_of_mem hf))

end TakenOver

/-! ## Copies of prepared blocks -/

/-- The block that takes the place of one of a sub-form, or of one that is of none. -/
def exchange (swap : SubForm → Block → Block) : Option SubForm → Block → Block
  | some f => swap f
  | none => id

/-- The block that is put out for a copy when sub-forms are prepared. -/
def Copy.prepared (swap : SubForm → Block → Block) (c : Copy) : Block :=
  (exchange swap c.owner c.source).withSuffix c.suffix

theorem Exchanges.stands_exchange {prep : SubForm → SubForm} {swap : SubForm → Block → Block}
    (hex : Exchanges prep swap) (owner : Option SubForm) (b : Block) :
    StandsAs b (exchange swap owner b) := by
  cases owner with
  | none => exact .refl b
  | some f => exact hex.stands f b

/-- **With prepared sub-forms, every copy is one of the prepared block.** -/
theorem Exchanges.expands {prep : SubForm → SubForm} {swap : SubForm → Block → Block}
    (hex : Exchanges prep swap) {docs : String → Option SubForm} {owner : Option SubForm} {n : Nat}
    {bs : List Block} {suffix : String} {trace : List Copy}
    (h : Traced docs owner n bs suffix trace) :
    Expands (fun id => (docs id).map prep) (bs.map (exchange swap owner)) suffix
      (trace.map (Copy.prepared swap)) := by
  induction h with
  | nil => exact .nil
  | @keep owner n b bs suffix trace hkeep _ ih =>
      exact .keep ((hex.stands_exchange owner b).expansion.trans hkeep) ih
  | @splice owner n b bs id suffix f inner trace hid hdoc _ _ ihin ih =>
      have hstands := hex.stands_exchange owner b
      have hblocks : (prep f).blocks = f.blocks.map (exchange swap (some f)) := hex.blocks f
      have hinner : (inner.map (Copy.inside n)).map (Copy.prepared swap) =
          inner.map (Copy.prepared swap) := by
        rw [List.map_map]
        rfl
      rw [List.map_append, hinner]
      refine .splice (hstands.expansion.trans hid) (congrArg (Option.map prep) hdoc) ?_ ih
      rw [hstands.instanceSuffix, hblocks]
      exact ihin

/-- The templates that the blocks of a sub-form take over, and the blocks once they have. -/
structure Expanding (f : SubForm) (swapped : Block → Block) (ts : Block → List Block) : Prop where
  popin : ∀ b ∈ f.blocks, b.popin = true → ts b = []
  chained : ∀ b ∈ f.blocks, b.popin = false → Chained f.blocks b (ts b)
  swapped : ∀ b, swapped b = Repeatable.expand ((f.blocks.flatMap ts).map Block.id) b (ts b)

theorem Prepared.expanding {f f' : SubForm} (h : Prepared f f') :
    ∃ swapped ts, f'.blocks = f.blocks.map swapped ∧ Expanding f swapped ts := by
  obtain ⟨limit, hres⟩ := h.resolved
  obtain ⟨ts, hts, hblocks⟩ := resolveRepeatables_eq_ok_iff.mp hres
  have hnd := h.distinct
  exact ⟨_, ts, hblocks, fun b hb hpop => templates_of_popin hnd hts hb hpop,
    fun b hb hpop => chained_of_templates hnd hts hb hpop, fun _ => rfl⟩

/-- A sub-form is prepared, and this is what its blocks become and take over. -/
structure Changes (prep : SubForm → SubForm) (swap : SubForm → Block → Block) (f : SubForm)
    (ts : Block → List Block) : Prop where
  changed : prep f ≠ f
  prepared : Prepared f (prep f)
  expanding : Expanding f (swap f) ts

/-- Sub-forms that are left as they are or prepared are exchanged block by block. -/
theorem exists_exchange {prep : SubForm → SubForm}
    (hprep : ∀ f, prep f = f ∨ Prepared f (prep f)) :
    ∃ swap, Exchanges prep swap
      ∧ ∀ f, (prep f = f ∧ ∀ b, swap f b = b) ∨ ∃ ts, Changes prep swap f ts := by
  have heach : ∀ f, ∃ swapped : Block → Block, (prep f).blocks = f.blocks.map swapped
      ∧ (∀ b, StandsAs b (swapped b))
      ∧ (∀ b, b.isConflicting = false → (swapped b).isConflicting = false)
      ∧ ((prep f = f ∧ ∀ b, swapped b = b)
        ∨ ∃ ts, prep f ≠ f ∧ Prepared f (prep f) ∧ Expanding f swapped ts) := by
    intro f
    by_cases heq : prep f = f
    · refine ⟨id, ?_, StandsAs.refl, fun _ hb => hb, .inl ⟨heq, fun _ => rfl⟩⟩
      rw [heq, List.map_id]
    · have hprepared := (hprep f).resolve_left heq
      obtain ⟨swapped, ts, hblocks, hexp⟩ := hprepared.expanding
      refine ⟨swapped, hblocks, fun b => ?_, fun b hb => ?_, .inr ⟨ts, heq, hprepared, hexp⟩⟩
      · rw [hexp.swapped]
        exact ⟨rfl, rfl, rfl⟩
      · rw [hexp.swapped]
        exact expand_isConflicting _ _ _ hb
  choose swap hblocks hstands hfree hcases using heach
  refine ⟨swap, ⟨hblocks, hstands, hfree⟩, fun f => (hcases f).imp_right ?_⟩
  rintro ⟨ts, heq, hprepared, hexp⟩
  exact ⟨ts, heq, hprepared, hexp⟩

/-! ## The copies, settled and waiting -/

/-- An expansion, and what takes the place of its blocks when sub-forms are prepared. -/
structure Replay (docs : String → Option SubForm) (prep : SubForm → SubForm)
    (swap : SubForm → Block → Block) (bs : List Block) (trace : List Copy)
    (after : Block → Block) : Prop where
  traced : Traced docs none 0 bs "" trace
  distinct : (trace.map fun c => c.block.id).Nodup
  free : ∀ id f, docs id = some f → ∀ b ∈ f.blocks, b.isConflicting = false
  cases : ∀ f, (prep f = f ∧ ∀ b, swap f b = b) ∨ ∃ ts, Changes prep swap f ts
  after : ∀ c ∈ trace, after c.block = c.prepared swap

/-- A block takes the place of another by its id. -/
theorem exists_after {trace : List Copy} (hnd : (trace.map fun c => c.block.id).Nodup)
    (g : Copy → Block) : ∃ after : Block → Block, ∀ c ∈ trace, after c.block = g c := by
  refine ⟨fun b => ((trace.find? fun c => c.block.id == b.id).map g).getD b, fun c hc => ?_⟩
  have hfind : trace.find? (fun c' => c'.block.id == c.block.id) = some c := find?_id hnd hc
  dsimp only
  rw [hfind, Option.map_some, Option.getD_some]

section Replay

variable {docs : String → Option SubForm} {prep : SubForm → SubForm}
  {swap : SubForm → Block → Block} {bs : List Block} {trace : List Copy} {after : Block → Block}
  {place : List Nat} {f : SubForm} {suffix : String} {b : Block}

/-- Where a sub-form is used, a chain within it has its copy. -/
theorem Traced.chained {ts : List Block} (h : Traced docs none 0 bs "" trace)
    (hoccurs : Occurs docs bs "" place f suffix) (hchain : Chained f.blocks b ts)
    (hstays : ∀ t ∈ ts, t.expansion? = none) :
    Chained (trace.map Copy.block) (b.withSuffix suffix)
      (ts.map fun t => t.withSuffix suffix) := by
  induction hchain with
  | stop hb =>
      refine .stop ?_
      rw [withSuffix_template?, hb, Option.map_none]
  | @step b t ts hname hrep _ ih =>
      obtain ⟨hkeep, hstays⟩ := List.forall_mem_cons.mp hstays
      obtain ⟨i, hi⟩ := List.getElem?_of_mem hname.1
      refine .step ⟨List.mem_map_of_mem (h.copied hoccurs hi hkeep), ?_⟩
        ((withSuffix_repeatable suffix t).trans hrep) (ih hstays)
      rw [withSuffix_template?, hname.2, Option.map_some, ← withSuffix_id]

namespace Replay

variable (h : Replay docs prep swap bs trace after)

include h

theorem ids : ((trace.map Copy.block).map Block.id).Nodup := by
  rw [List.map_map]
  exact h.distinct

/-- The copy of a block that stays, in both expansions. -/
theorem copy_mem (hoccurs : Occurs docs bs "" place f suffix) (hb : b ∈ f.blocks)
    (hkeep : b.expansion? = none) : b.withSuffix suffix ∈ trace.map Copy.block
      ∧ after (b.withSuffix suffix) = (swap f b).withSuffix suffix := by
  obtain ⟨i, hi⟩ := List.getElem?_of_mem hb
  have hc := h.traced.copied hoccurs hi hkeep
  exact ⟨List.mem_map_of_mem hc, h.after _ hc⟩

/-- A block is put out as before, or it is the copy of a block of a sub-form that is prepared. -/
theorem block_cases (hb : b ∈ trace.map Copy.block) : after b = b
    ∨ ∃ place f suffix ts b₀, Occurs docs bs "" place f suffix ∧ Changes prep swap f ts
      ∧ b₀ ∈ f.blocks ∧ b₀.expansion? = none ∧ b = b₀.withSuffix suffix := by
  obtain ⟨c, hc, rfl⟩ := List.mem_map.mp hb
  obtain ⟨hkeep, ⟨howner, -, -⟩ | ⟨f, place, howner, hmem, hoccurs⟩⟩ :=
    h.traced.source_cases c hc
  · refine .inl ((h.after c hc).trans ?_)
    rw [Copy.prepared, howner]
    rfl
  · rcases h.cases f with ⟨-, hsame⟩ | ⟨ts, hchanges⟩
    · refine .inl ((h.after c hc).trans ?_)
      rw [Copy.prepared, howner]
      exact congrArg (Block.withSuffix · c.suffix) (hsame c.source)
    · exact .inr ⟨place, f, c.suffix, ts, c.source, hoccurs, hchanges, hmem, hkeep, rfl⟩

/-- A block that takes something over stays, since it cannot name a sub-form as well. -/
theorem stays_of_chained (hoccurs : Occurs docs bs "" place f suffix) (hb : b ∈ f.blocks)
    {us : List Block} (hchain : Chained f.blocks b us) (hsome : us ≠ []) : b.expansion? = none := by
  obtain ⟨id, hdoc⟩ := hoccurs.known
  cases hchain with
  | stop _ => exact absurd rfl hsome
  | step hname _ _ => exact expansion?_of_template (h.free id f hdoc b hb) hname.2

section Changed

variable {ts : Block → List Block} {b₀ : Block} (hoccurs : Occurs docs bs "" place f suffix)
  (hchanges : Changes prep swap f ts) (hmem : b₀ ∈ f.blocks) (hkeep : b₀.expansion? = none)

include hoccurs hchanges hmem hkeep

/-- The copy of a prepared block. -/
theorem after_eq : after (b₀.withSuffix suffix) =
    (Repeatable.expand ((f.blocks.flatMap ts).map Block.id) b₀ (ts b₀)).withSuffix suffix := by
  rw [(h.copy_mem hoccurs hmem hkeep).2, hchanges.expanding.swapped]

/-- A popin waits, since it takes nothing over. -/
theorem waiting (hpop : b₀.popin = true) : Waiting after (b₀.withSuffix suffix) := by
  have hnone : ts b₀ = [] := hchanges.expanding.popin b₀ hmem hpop
  have hafter := h.after_eq hoccurs hchanges hmem hkeep
  constructor
  · rw [hafter, withSuffix_fields, withSuffix_fields, Repeatable.expand, Repeatable.takenOver,
      hnone]
    simp
  · rw [hafter, withSuffix_repeatableBlockRef, withSuffix_repeatableBlockRef, Repeatable.expand,
      hpop, Bool.true_or, if_pos rfl]

/-- Any other block is settled, with the copies of its templates. -/
theorem settled (hpop : b₀.popin = false) : Settled (trace.map Copy.block) after
    (b₀.withSuffix suffix) ((ts b₀).map fun t => t.withSuffix suffix) := by
  have hafter := h.after_eq hoccurs hchanges hmem hkeep
  have hchain := hchanges.expanding.chained b₀ hmem hpop
  have hstays := hchanges.prepared.within b₀ hmem hpop _ hchain
  refine ⟨(withSuffix_popin b₀ suffix).trans hpop, h.traced.chained hoccurs hchain hstays, ?_, ?_,
    ?_⟩
  · rw [hafter, withSuffix_repeatableBlockRef, withSuffix_repeatableBlockRef, Repeatable.expand,
      hpop, withSuffix_template?, Bool.false_or, Option.isNone_map]
    dsimp only
    split <;> rfl
  · intro hrep
    rw [withSuffix_repeatable] at hrep
    rw [hafter, withSuffix_fields, withSuffix_fields, Repeatable.expand, Repeatable.takenOver, hrep]
    simp [List.flatMap_map, List.map_flatMap]
  · refine List.forall_mem_map.mpr fun t ht => ?_
    have htmem := hchain.subset t ht
    have hused : t.id ∈ (f.blocks.flatMap ts).map Block.id :=
      List.mem_map_of_mem (List.mem_flatMap.mpr ⟨b₀, hmem, ht⟩)
    rw [h.after_eq hoccurs hchanges htmem (hstays t ht), withSuffix_templateOnly, Repeatable.expand,
      List.contains_iff_mem.mpr hused, Bool.or_true]

/-- What a prepared block is kept for as a template, its copy is kept for as well. -/
theorem used (hmark : (after (b₀.withSuffix suffix)).templateOnly = true) :
    (b₀.withSuffix suffix).templateOnly = true
      ∨ ∃ a ∈ trace.map Copy.block, a.popin = false
        ∧ Relation.TransGen (Names (trace.map Copy.block)) a (b₀.withSuffix suffix) := by
  rw [h.after_eq hoccurs hchanges hmem hkeep, withSuffix_templateOnly, Repeatable.expand,
    Bool.or_eq_true, List.contains_iff_mem] at hmark
  rw [withSuffix_templateOnly]
  refine hmark.imp_right fun hused => ?_
  -- what takes the block over stays too, and so its copy is there to name the copy
  obtain ⟨t, ht, hid⟩ := List.mem_map.mp hused
  obtain ⟨a, ha, ht⟩ := List.mem_flatMap.mp ht
  have hnd := hchanges.prepared.distinct
  cases hpop : a.popin with
  | true =>
      rw [hchanges.expanding.popin a ha hpop] at ht
      exact absurd ht List.not_mem_nil
  | false =>
      have hchain := hchanges.expanding.chained a ha hpop
      obtain rfl := eq_of_id hnd (hchain.subset t ht) hmem hid
      have hstays := hchanges.prepared.within a ha hpop _ hchain
      have hkeep' := h.stays_of_chained hoccurs ha hchain (List.ne_nil_of_mem ht)
      refine ⟨_, (h.copy_mem hoccurs ha hkeep').1, (withSuffix_popin a suffix).trans hpop, ?_⟩
      have hcopied := h.traced.chained hoccurs hchain hstays
      exact (hcopied.mem_iff h.ids).mp (List.mem_map_of_mem ht)

end Changed

/-- **With prepared sub-forms, each copy is settled or waits.** -/
theorem ahead : Ahead (trace.map Copy.block) after where
  frame b hb := by
    rcases h.block_cases hb with
      hsame | ⟨place, f, suffix, ts, b₀, hoccurs, hchanges, hmem, hkeep, rfl⟩
    · rw [hsame]
    · rw [h.after_eq hoccurs hchanges hmem hkeep, block_withSuffix_eq, block_withSuffix_eq]
      rfl
  each b hb := by
    rcases h.block_cases hb with
      hsame | ⟨place, f, suffix, ts, b₀, hoccurs, hchanges, hmem, hkeep, rfl⟩
    · exact .inl ⟨congrArg Block.fields hsame, congrArg Block.repeatableBlockRef hsame⟩
    · cases hpop : b₀.popin with
      | true => exact .inl (h.waiting hoccurs hchanges hmem hkeep hpop)
      | false => exact .inr ⟨_, h.settled hoccurs hchanges hmem hkeep hpop⟩
  keeps b hb hmark := by
    rcases h.block_cases hb with
      hsame | ⟨place, f, suffix, ts, b₀, hoccurs, hchanges, hmem, hkeep, rfl⟩
    · rwa [hsame]
    · rw [withSuffix_templateOnly] at hmark
      rw [h.after_eq hoccurs hchanges hmem hkeep, withSuffix_templateOnly, Repeatable.expand, hmark,
        Bool.true_or]
  used b hb hmark := by
    rcases h.block_cases hb with
      hsame | ⟨place, f, suffix, ts, b₀, hoccurs, hchanges, hmem, hkeep, rfl⟩
    · exact .inl (hsame ▸ hmark)
    · exact h.used hoccurs hchanges hmem hkeep hmark

/-- The copy of a prepared block has the copies of what it took over behind its own fields. -/
theorem fields_of_settled {ts : Block → List Block} {b₀ : Block}
    (hoccurs : Occurs docs bs "" place f suffix) (hchanges : Changes prep swap f ts)
    (hmem : b₀ ∈ f.blocks) (hkeep : b₀.expansion? = none) :
    (after (b₀.withSuffix suffix)).fields = (b₀.withSuffix suffix).fields
      ++ (Repeatable.takenOver b₀ (ts b₀)).map fun g => g.withSuffix suffix := by
  rw [h.after_eq hoccurs hchanges hmem hkeep, withSuffix_fields, withSuffix_fields,
    Repeatable.expand, List.map_append]

variable {expanded expanded' : Block → Block}
  (heach : ∀ b ∈ trace.map Copy.block,
    expanded' b = { expanded b with fields := (expanded' b).fields }
      ∧ (Waiting after b → (expanded' b).fields = (expanded b).fields)
      ∧ ∀ ts, Settled (trace.map Copy.block) after b ts →
        (expanded b).fields = b.fields ++ Repeatable.takenOver b ts
          ∧ (expanded' b).fields = (after b).fields)

include heach

omit h in
theorem same_of_waiting (hb : b ∈ trace.map Copy.block) (hwait : Waiting after b) :
    expanded' b = expanded b := by
  obtain ⟨hframe, hwaiting, -⟩ := heach b hb
  rw [hframe, hwaiting hwait]

/-- With prepared sub-forms, all that comes out differently are ids of members. -/
theorem sameButMembers (hb : b ∈ trace.map Copy.block) :
    SameButMembers (expanded b) (expanded' b) := by
  rcases h.block_cases hb with
    hsame | ⟨place, f, suffix, ts, b₀, hoccurs, hchanges, hmem, hkeep, rfl⟩
  · have hwait : Waiting after b :=
      ⟨congrArg Block.fields hsame, congrArg Block.repeatableBlockRef hsame⟩
    rw [same_of_waiting heach hb hwait]
    exact .refl _
  · cases hpop : b₀.popin with
    | true =>
        rw [same_of_waiting heach hb (h.waiting hoccurs hchanges hmem hkeep hpop)]
        exact .refl _
    | false =>
        obtain ⟨hframe, -, hsettled⟩ := heach _ hb
        obtain ⟨hfields, hfields'⟩ := hsettled _ (h.settled hoccurs hchanges hmem hkeep hpop)
        have hid : b₀.id ≠ "" := hchanges.prepared.named b₀ hmem
        refine ⟨hframe, ?_⟩
        rw [hfields, hfields', h.fields_of_settled hoccurs hchanges hmem hkeep]
        exact List.rel_append (List.forall₂_same.mpr fun _ _ => .inl rfl)
          (takenOver_misplaced hid _ suffix)

/-- **Nothing comes out differently exactly when** no members are taken over under a suffix. -/
theorem all_same_iff : (∀ b ∈ trace.map Copy.block, expanded' b = expanded b) ↔
    ∀ place f suffix, Occurs docs bs "" place f suffix → TakesMembers f →
      prep f = f ∨ suffix = "" := by
  have hsettled : ∀ (place : List Nat) (f : SubForm) (suffix : String) (ts : Block → List Block)
      (b₀ : Block), Occurs docs bs "" place f suffix → Changes prep swap f ts → b₀ ∈ f.blocks →
      b₀.expansion? = none → b₀.popin = false →
      (expanded' (b₀.withSuffix suffix) = expanded (b₀.withSuffix suffix) ↔
        (b₀.repeatable = true → (ts b₀).flatMap Block.fields ≠ [] → suffix = "")) := by
    intro place f suffix ts b₀ hoccurs hchanges hmem hkeep hpop
    have hid : b₀.id ≠ "" := hchanges.prepared.named b₀ hmem
    obtain ⟨hframe, -, hsettled⟩ := heach _ (h.copy_mem hoccurs hmem hkeep).1
    obtain ⟨hfields, hfields'⟩ := hsettled _ (h.settled hoccurs hchanges hmem hkeep hpop)
    rw [← takenOver_eq_iff hid, ← List.append_right_inj (b₀.withSuffix suffix).fields,
      ← h.fields_of_settled hoccurs hchanges hmem hkeep, ← hfields', ← hfields]
    exact ⟨congrArg Block.fields, fun heq => by rw [hframe, heq]⟩
  constructor
  · rintro hall place f suffix hoccurs ⟨b₀, hmem, hpop, hrep, us, hchain, hsome⟩
    rcases h.cases f with ⟨hsame, -⟩ | ⟨ts, hchanges⟩
    · exact .inl hsame
    · have hchain' := hchanges.expanding.chained b₀ hmem hpop
      obtain rfl := hchain.unique hchanges.prepared.distinct hchain'
      have hkeep : b₀.expansion? = none :=
        h.stays_of_chained hoccurs hmem hchain fun hnone => hsome (by rw [hnone, List.flatMap_nil])
      have hsame := hall _ (h.copy_mem hoccurs hmem hkeep).1
      exact .inr ((hsettled _ _ _ _ _ hoccurs hchanges hmem hkeep hpop).mp hsame hrep hsome)
  · intro hwhere b hb
    rcases h.block_cases hb with
      hsame | ⟨place, f, suffix, ts, b₀, hoccurs, hchanges, hmem, hkeep, rfl⟩
    · exact same_of_waiting heach hb
        ⟨congrArg Block.fields hsame, congrArg Block.repeatableBlockRef hsame⟩
    · cases hpop : b₀.popin with
      | true => exact same_of_waiting heach hb (h.waiting hoccurs hchanges hmem hkeep hpop)
      | false =>
          refine (hsettled place f suffix ts b₀ hoccurs hchanges hmem hkeep hpop).mpr ?_
          intro hrep hsome
          have htakes : TakesMembers f :=
            ⟨b₀, hmem, hpop, hrep, _, hchanges.expanding.chained b₀ hmem hpop, hsome⟩
          exact (hwhere place f suffix hoccurs htakes).resolve_left hchanges.changed

end Replay

end Replay

/-- **Resolving may begin with its sub-forms.** A form that is resolved is so too, and asks for the
same, if some sub-forms are prepared before. The blocks are the same and in the same order, with
the same fields, but that the id of a member of a group may have its suffix misplaced. They are the
same throughout if and only if every use of a sub-form that takes members over is without a suffix,
or the sub-form is not changed by being prepared. -/
theorem prepared_resolves {σ : Type} {p : Provider σ} {limit : Int} {prep : SubForm → SubForm}
    {d r : Form} {s t : σ} (hprep : ∀ f, prep f = f ∨ Prepared f (prep f))
    (h : d.resolveFrom p limit s = (.ok r, t)) :
    ∃ given r', collectSubForms p d.blocks s = (.ok given, t)
      ∧ d.resolveFrom (prepared p prep) limit s = (.ok r', t)
      ∧ r' = { r with blocks := r'.blocks }
      ∧ List.Forall₂ SameButMembers r.blocks r'.blocks
      ∧ (r' = r ↔ ∀ place f suffix, Occurs (Ordered.get? given) d.blocks "" place f suffix →
        TakesMembers f → prep f = f ∨ suffix = "") := by
  obtain ⟨swap, hex, hcases⟩ := exists_exchange hprep
  obtain ⟨hfree, spliced, hsub, hrep⟩ := resolveFrom_cases h
  obtain ⟨given, hcol, hsplice⟩ := resolveSubForms_cases hsub
  have hcol' := hex.collect hcol
  refine ⟨given, ?_⟩
  cases given with
  | nil =>
      -- nothing is used, so nothing is changed
      have hsub' : resolveSubForms (prepared p prep) limit d.blocks s = (.ok d.blocks, t) := by
        rw [resolveSubForms, hcol']
        rfl
      have hnone : spliced = d.blocks := by
        rw [resolveSubForms, hcol] at hsub
        cases hsub
        rfl
      have hres := resolveFrom_eq_ok hfree hsub' (hnone ▸ hrep)
      rw [← resolveFrom_frame h] at hres
      refine ⟨r, hcol, hres, rfl, List.forall₂_same.mpr fun b _ => .refl b, ?_⟩
      refine iff_of_true rfl fun place f suffix hoccurs _ => ?_
      obtain ⟨id, hdoc⟩ := hoccurs.known
      cases hdoc
  | cons entry rest =>
      rw [resolveSubForms_eq hcol, Prod.mk.injEq] at hsub
      obtain ⟨hrun, hids⟩ := spliceSubForms_cases hsub.1
      obtain ⟨trace, htrace, rfl⟩ := (run_expands hrun).traced none 0
      have hdistinct := (firstRepeated?_eq_none hids).1
      rw [List.map_map] at hdistinct
      obtain ⟨after, hafter⟩ := exists_after hdistinct (Copy.prepared swap)
      have hfetched := (collectSubForms_gives hcol).2.2
      have hreplay : Replay (Ordered.get? (entry :: rest)) prep swap d.blocks trace after :=
        ⟨htrace, hdistinct, fun id f hget => hfetched (id, f) (mem_of_get? hget), hcases, hafter⟩
      -- the prepared sub-forms are spliced into what the prepared blocks stand for
      have hsame := sameTask_enterAll StandsAs.refl d.blocks ""
      rw [List.map_id'] at hsame
      obtain ⟨out', hrun', hids'⟩ := hex.splice hrun hsame
      have hout' : out' = (trace.map Copy.block).map after := by
        have hdocs : (fun id => (Ordered.get? (entry :: rest) id).map prep) =
            Ordered.get? (prepareAll prep (entry :: rest)) :=
          funext fun id => (get?_prepareAll _ _).symm
        have hexp := hex.expands htrace
        rw [hdocs, exchange, List.map_id] at hexp
        rw [(run_expands hrun').unique hexp, List.map_map]
        exact List.map_congr_left fun c hc => (hafter c hc).symm
      have hsub' : resolveSubForms (prepared p prep) limit d.blocks s =
          (.ok ((trace.map Copy.block).map after), t) := by
        rw [← hout', ← spliceSubForms_eq_ok hrun' (hids' ▸ hids)]
        exact resolveSubForms_eq hcol' limit
      obtain ⟨expanded, expanded', hr, hrep', heach⟩ :=
        resolveRepeatables_ahead hreplay.ahead hreplay.ids hrep
      have hframe := resolveFrom_frame h
      refine ⟨{ d with blocks := (trace.map Copy.block).map expanded' }, hcol,
        resolveFrom_eq_ok hfree hsub' hrep', ?_, ?_, ?_⟩
      · rw [hframe]
      · rw [hr, List.forall₂_map_left_iff, List.forall₂_map_right_iff, List.forall₂_same]
        exact fun b hb => hreplay.sameButMembers heach hb
      · rw [← hreplay.all_same_iff heach, ← List.map_inj_left, ← hr]
        constructor
        · exact fun heq => congrArg Form.blocks heq
        · intro heq
          rw [heq, ← hframe]

/-! ## Streets of a home -/

/-- A list of streets, made of a template. -/
def streetsForm : SubForm where
  id := "streets"
  title := "Streets"
  version := "1.0"
  blocks := [rowsOf "addresses" "address" [], fieldBlock "address" [textField "street"]]
  submission := none

/-- The list with its template expanded. -/
def streetsPrepared : SubForm :=
  { streetsForm with
    blocks := [{ rowsOf "addresses" "address" [groupField "addresses.street" "addresses"] with
        repeatableBlockRef := none },
      { fieldBlock "address" [textField "street"] with templateOnly := true }] }

/-- The streets are prepared, and all else is left as it is. -/
def prepareStreets (f : SubForm) : SubForm := if f = streetsForm then streetsPrepared else f

/-- A form that uses the streets, as an instance of this name. -/
def streetsHost (name : String) : Form :=
  ⟨none, none, "1.0", [useBlock "home" "streets" name], none⟩

/-- The form with the streets in it: the list, the id of its member and the template. -/
def streetsResolved (list member template street : String) : Form :=
  { streetsHost "" with
    blocks := [{ rowsOf list template [groupField member list] with repeatableBlockRef := none },
      { fieldBlock template [textField street] with templateOnly := true }] }

/-- A block takes over the one template it names, which stands right behind it. -/
theorem resolveRepeatables_pair {b t : Block} {ref : String} (hpop : b.popin = false)
    (hname : b.template? = some ref) (hself : [b.id].contains ref = false)
    (htarget : Repeatable.target [b, t] ref b.id = .ok t) (hlast : t.template? = none) :
    resolveRepeatables 50 [b, t] =
      .ok [Repeatable.expand [t.id] b [t], Repeatable.expand [t.id] t []] := by
  have hfirst : Repeatable.templates [b, t] 50 b = .ok [t] := by
    rw [Repeatable.templates, hpop, chain_step hname hself (by simp) htarget, chain_end hlast]
    rfl
  have hsecond : Repeatable.templates [b, t] 50 t = .ok [] := by
    rw [Repeatable.templates, chain_end hlast, ite_self]
  rw [resolveRepeatables]
  simp only [List.mapM_cons, List.mapM_nil]
  rw [hfirst, hsecond]
  rfl

theorem prepared_streets : Prepared streetsForm streetsPrepared where
  named := by decide
  distinct := by decide
  frame := rfl
  resolved := ⟨50, resolveRepeatables_pair rfl rfl rfl rfl rfl⟩
  within b _ _ ts hchain t ht := by
    rcases List.mem_pair.mp (hchain.subset t ht) with rfl | rfl <;> rfl

theorem prepareStreets_cases (f : SubForm) :
    prepareStreets f = f ∨ Prepared f (prepareStreets f) := by
  unfold prepareStreets
  split
  · rename_i heq
    exact .inr (heq ▸ prepared_streets)
  · exact .inl rfl

/-- What the streets become in the use that is called home, with this id for the member. -/
def homeStreets (member : String) : Form :=
  streetsResolved "addresses_home" member "address_home" "street_home"

/-- What the streets become in a use without a name. -/
def plainStreets : Form := streetsResolved "addresses" "addresses.street" "address" "street"

/-- The provider of the streets, as they are or prepared. -/
def streetsProvider (f : SubForm) : Provider Unit := .ofCatalog [("streets", f)]

/-- The two blocks of the streets are put out in the place of the use. -/
theorem resolveFrom_streets {f : SubForm} {name suffix : String} {rows entry : Block}
    {out : List Block} (hf : f.blocks = [rows, entry])
    (hcol : collectSubForms (streetsProvider f) (streetsHost name).blocks () =
      (.ok [("streets", f)], ()))
    (hrows : rows.expansion? = none) (hentry : entry.expansion? = none)
    (hsuffix : (useBlock "home" "streets" name).instanceSuffix = suffix)
    (hids : firstRepeated? [] [(rows.withSuffix suffix).id, (entry.withSuffix suffix).id] = none)
    (hrep : resolveRepeatables 50 [rows.withSuffix suffix, entry.withSuffix suffix] = .ok out) :
    (streetsHost name).resolveFrom (streetsProvider f) 50 () =
      (.ok { streetsHost name with blocks := out }, ()) := by
  have hrun : Splice.run [("streets", f)] 50 [] (Splice.enterAll (streetsHost name).blocks "") =
      .ok [rows.withSuffix suffix, entry.withSuffix suffix] := by
    show Splice.run _ _ _ [.enter _ _] = _
    rw [run_splice rfl rfl (by decide) rfl, hf, hsuffix, String.append_empty]
    show Splice.run _ _ _ [.enter _ _, .enter _ _, .leave] = _
    rw [run_keep hrows, run_keep hentry, run_leave, Splice.run]
    rfl
  have hsub : resolveSubForms (streetsProvider f) 50 (streetsHost name).blocks () =
      (.ok [rows.withSuffix suffix, entry.withSuffix suffix], ()) := by
    rw [← spliceSubForms_eq_ok hrun hids]
    exact resolveSubForms_eq hcol 50
  exact resolveFrom_eq_ok (List.forall_mem_singleton.mpr rfl) hsub hrep

theorem resolveFrom_homeStreets :
    (streetsHost "home").resolveFrom (streetsProvider streetsForm) 50 () =
      (.ok (homeStreets "addresses_home.street_home"), ()) :=
  resolveFrom_streets rfl rfl rfl rfl rfl (by decide) (resolveRepeatables_pair rfl rfl rfl rfl rfl)

theorem resolveFrom_plainStreets :
    (streetsHost "").resolveFrom (streetsProvider streetsForm) 50 () = (.ok plainStreets, ()) :=
  resolveFrom_streets rfl rfl rfl rfl rfl (by decide) (resolveRepeatables_pair rfl rfl rfl rfl rfl)

theorem resolveFrom_preparedStreets :
    (streetsHost "home").resolveFrom (streetsProvider streetsPrepared) 50 () =
      (.ok (homeStreets "addresses.street_home"), ()) :=
  resolveFrom_streets rfl rfl rfl rfl rfl (by decide) (resolveRepeatables_self 50 (by decide))

theorem takesMembers_streets : TakesMembers streetsForm := by
  refine ⟨rowsOf "addresses" "address" [], by decide, rfl, rfl, _,
    .step (t := fieldBlock "address" [textField "street"]) ⟨by decide, rfl⟩ rfl (.stop rfl), ?_⟩
  exact List.cons_ne_nil _ _

/-- The streets come out the same in a use without a name, and not in the one that is called home.
-/
theorem prepared_resolves_streets :
    (∀ f, prepareStreets f = f ∨ Prepared f (prepareStreets f))
      ∧ (streetsHost "").resolveFrom (streetsProvider streetsForm) 50 () = (.ok plainStreets, ())
      ∧ (streetsHost "").resolveFrom (prepared (streetsProvider streetsForm) prepareStreets) 50 () =
        (.ok plainStreets, ())
      ∧ (streetsHost "home").resolveFrom (streetsProvider streetsForm) 50 () =
        (.ok (homeStreets "addresses_home.street_home"), ())
      ∧ ∃ r', (streetsHost "home").resolveFrom
            (prepared (streetsProvider streetsForm) prepareStreets) 50 () = (.ok r', ())
        ∧ List.Forall₂ SameButMembers (homeStreets "addresses_home.street_home").blocks r'.blocks
        ∧ r' ≠ homeStreets "addresses_home.street_home" := by
  have hcol : ∀ name, collectSubForms (streetsProvider streetsForm) (streetsHost name).blocks () =
      (.ok [("streets", streetsForm)], ()) := fun name => rfl
  refine ⟨prepareStreets_cases, resolveFrom_plainStreets, ?_, resolveFrom_homeStreets, ?_⟩
  · obtain ⟨given, r', hgiven, hres, -, -, hsame⟩ :=
      prepared_resolves prepareStreets_cases resolveFrom_plainStreets
    rw [hcol] at hgiven
    cases hgiven
    rw [hres, hsame.mpr]
    intro place f suffix hoccurs _
    -- there is one use, and the streets use nothing themselves
    cases hoccurs with
    | @here _ _ n b id f hb hid hdoc =>
        cases n with
        | zero => cases hb; exact .inr rfl
        | succ n => cases hb
    | @inside _ _ n b id f g place suffix hb hid hdoc hin =>
        have hf : f = streetsForm :=
          congrArg Prod.snd (List.mem_singleton.mp (mem_of_get? hdoc))
        subst hf
        have hnone : ∀ b ∈ streetsForm.blocks, b.expansion? = none := by decide
        cases hin with
        | here hb' hid' _ => rw [hnone _ (List.mem_of_getElem? hb')] at hid'; cases hid'
        | inside hb' hid' _ _ => rw [hnone _ (List.mem_of_getElem? hb')] at hid'; cases hid'
  · obtain ⟨given, r', hgiven, hres, -, hblocks, hsame⟩ :=
      prepared_resolves prepareStreets_cases resolveFrom_homeStreets
    rw [hcol] at hgiven
    cases hgiven
    refine ⟨r', hres, hblocks, fun heq => ?_⟩
    have hoccurs : Occurs (Ordered.get? [("streets", streetsForm)]) (streetsHost "home").blocks ""
        [0] streetsForm "_home" := .here (b := useBlock "home" "streets" "home") rfl rfl rfl
    rcases hsame.mp heq _ _ _ hoccurs takesMembers_streets with hsame | hempty
    · exact absurd hsame (by decide)
    · exact absurd hempty (by decide)

/-- Under a name, the prepared streets have a member whose id has lost the group's. -/
theorem suffix_misplaced_home :
    Prepared streetsForm streetsPrepared
      ∧ (streetsHost "home").resolveFrom (streetsProvider streetsForm) 50 () =
        (.ok (homeStreets "addresses_home.street_home"), ())
      ∧ (streetsHost "home").resolveFrom (streetsProvider streetsPrepared) 50 () =
        (.ok (homeStreets "addresses.street_home"), ())
      ∧ ((homeStreets "addresses_home.street_home").renderBlocks.flatMap Block.fields).map
          Field.id ≠
        ((homeStreets "addresses.street_home").renderBlocks.flatMap Block.fields).map Field.id :=
  ⟨prepared_streets, resolveFrom_homeStreets, resolveFrom_preparedStreets, by decide⟩

end Formwork.Proofs
