import Formwork.Proofs.Reference.Templates

/-!
# Templates expanded ahead

The templates of some blocks may have been expanded before those of the others are: such
blocks name no template any more, and have the fields of their chains behind their own
already (`Settled`). The other blocks are as they were (`Waiting`).

A chain that comes to a settled block ends there, where it would have gone on. It is shorter
for that, so it is not refused where the whole chain is not, and it gives the same fields,
since the settled block has those of the rest of the chain. What the rest of the chain is
kept for, as templates only, was noted when the block was settled. So expanding the templates
that are left comes to the same blocks, but for the fields that settled blocks have taken over
as members of groups: those stay as they were made (`resolveRepeatables_ahead`).
-/

namespace Formwork.Proofs

open Formwork

/-- A block has the fields and the template that it had. -/
structure Waiting (after : Block → Block) (b : Block) : Prop where
  fields : (after b).fields = b.fields
  ref : (after b).repeatableBlockRef = b.repeatableBlockRef

/-- The templates of a block are expanded, and kept as templates. -/
structure Settled (all : List Block) (after : Block → Block) (b : Block) (ts : List Block) :
    Prop where
  visible : b.popin = false
  chained : Chained all b ts
  ref : (after b).repeatableBlockRef =
    if b.template?.isNone then b.repeatableBlockRef else none
  fields : b.repeatable = false → (after b).fields = b.fields ++ ts.flatMap Block.fields
  kept : ∀ t ∈ ts, (after t).templateOnly = true

/-- Each of some blocks is settled or waits. -/
structure Ahead (all : List Block) (after : Block → Block) : Prop where
  frame : ∀ b ∈ all, after b =
    { b with
      fields := (after b).fields
      repeatableBlockRef := (after b).repeatableBlockRef
      templateOnly := (after b).templateOnly }
  each : ∀ b ∈ all, Waiting after b ∨ ∃ ts, Settled all after b ts
  /-- What was kept as a template still is. -/
  keeps : ∀ b ∈ all, b.templateOnly = true → (after b).templateOnly = true
  /-- Nothing else is kept as a template but what would be anyway. -/
  used : ∀ b ∈ all, (after b).templateOnly = true → b.templateOnly = true
    ∨ ∃ a ∈ all, a.popin = false ∧ Relation.TransGen (Names all) a b

section Ahead

variable {all : List Block} {after : Block → Block} {b t : Block} {ts : List Block}

/-- A settled block names no template. -/
theorem Settled.template? (h : Settled all after b ts) : (after b).template? = none := by
  have href := h.ref
  unfold Block.template? at href ⊢
  rw [href]
  cases hgiven : nonEmpty? b.repeatableBlockRef with
  | none => exact hgiven
  | some ref => rfl

theorem Waiting.template? (h : Waiting after b) : (after b).template? = b.template? := by
  rw [Block.template?, h.ref]
  rfl

section Frame

variable (h : Ahead all after) (hb : b ∈ all)

include h hb

theorem Ahead.id : (after b).id = b.id := by rw [h.frame b hb]

theorem Ahead.repeatable : (after b).repeatable = b.repeatable := by rw [h.frame b hb]

theorem Ahead.popin : (after b).popin = b.popin := by rw [h.frame b hb]

end Frame

theorem Ahead.ids (h : Ahead all after) : (all.map after).map Block.id = all.map Block.id := by
  rw [List.map_map]
  exact List.map_congr_left fun b hb => h.id hb

/-! ## Shorter chains -/

/-- A reference that is left is one that was there. -/
theorem Ahead.names_cases (h : Ahead all after) (hb : b ∈ all) {t' : Block}
    (hname : Names (all.map after) (after b) t') :
    Waiting after b ∧ ∃ t, Names all b t ∧ t' = after t := by
  obtain ⟨hmem, href⟩ := hname
  obtain ⟨t, ht, rfl⟩ := List.mem_map.mp hmem
  rcases h.each b hb with hwait | ⟨ts, hsettled⟩
  · rw [hwait.template?, h.id ht] at href
    exact ⟨hwait, t, ⟨ht, href⟩, rfl⟩
  · rw [hsettled.template?] at href
    cases href

/-- The reference of a block that waits is left. -/
theorem Ahead.names (h : Ahead all after) (hwait : Waiting after b) (hname : Names all b t) :
    Names (all.map after) (after b) (after t) := by
  refine ⟨List.mem_map_of_mem hname.1, ?_⟩
  rw [hwait.template?, h.id hname.1]
  exact hname.2

/-- **A chain that is cut short by a settled block gives the same fields**, and is refused nowhere
that the whole chain is not. -/
theorem Ahead.chained (h : Ahead all after) (hnd : (all.map Block.id).Nodup) {limit : Int}
    {path : List String} (hchain : Chained all b ts) (hwait : Waiting after b)
    (hfits : FitsBehind limit path ts) :
    ∃ ts', Chained (all.map after) (after b) ts' ∧ FitsBehind limit path ts'
      ∧ ts'.flatMap Block.fields = ts.flatMap Block.fields := by
  -- by the whole chain, up to the first settled block on it
  induction hchain generalizing path with
  | stop hb => exact ⟨[], .stop (hwait.template?.trans hb), fitsBehind_nil _ _, rfl⟩
  | @step b t ts hname hrep hrest ih =>
      obtain ⟨hnew, hroom, hfits⟩ := fitsBehind_cons_iff.mp hfits
      have hid : (after t).id = t.id := h.id hname.1
      have hrep' : (after t).repeatable = false := (h.repeatable hname.1).trans hrep
      rcases h.each t hname.1 with hwaiting | ⟨us, hsettled⟩
      · obtain ⟨ts', hchain', hfits', hfields⟩ := ih hwaiting hfits
        refine ⟨after t :: ts', .step (h.names hwait hname) hrep' hchain', ?_, ?_⟩
        · exact fitsBehind_cons_iff.mpr ⟨hid ▸ hnew, hroom, hid ▸ hfits'⟩
        · rw [List.flatMap_cons, List.flatMap_cons, hwaiting.fields, hfields]
      · -- the chain ends here, and the block has what the rest of it gives
        obtain rfl := hsettled.chained.unique hnd hrest
        refine ⟨[after t], .step (h.names hwait hname) hrep' (.stop hsettled.template?), ?_, ?_⟩
        · exact fitsBehind_cons_iff.mpr ⟨hid ▸ hnew, hroom, fitsBehind_nil _ _⟩
        · rw [List.flatMap_cons, List.flatMap_cons, hsettled.fields hrep, List.flatMap_nil,
            List.append_nil]

/-- What a block takes over when the others are expanded: if it is settled nothing, and otherwise
the fields that it would have taken over. -/
theorem Ahead.templates (h : Ahead all after) (hnd : (all.map Block.id).Nodup) {limit : Int}
    (hb : b ∈ all) (hts : Repeatable.templates all limit b = .ok ts) :
    ∃ ts', Repeatable.templates (all.map after) limit (after b) = .ok ts'
      ∧ (Waiting after b → ts'.flatMap Block.fields = ts.flatMap Block.fields)
      ∧ ∀ us, Settled all after b us → ts = us ∧ ts' = [] := by
  have hnd' : ((all.map after).map Block.id).Nodup := h.ids ▸ hnd
  have hts := (templates_eq_ok_iff hnd).mp hts
  cases hpop : b.popin with
  | true =>
      rw [hpop, if_pos rfl] at hts
      refine ⟨[], (templates_eq_ok_iff hnd').mpr ?_, fun _ => by rw [hts], fun us hus => ?_⟩
      · rw [h.popin hb, hpop, if_pos rfl]
      · have hvisible := hus.visible
        rw [hpop] at hvisible
        cases hvisible
  | false =>
      rw [hpop, if_neg Bool.false_ne_true] at hts
      have hopen : ∀ ts', Repeatable.templates (all.map after) limit (after b) = .ok ts' ↔
          Chained (all.map after) (after b) ts' ∧ FitsBehind limit [(after b).id] ts' := by
        intro ts'
        rw [templates_eq_ok_iff hnd', h.popin hb, hpop, if_neg Bool.false_ne_true]
      rcases h.each b hb with hwait | ⟨us, hsettled⟩
      · obtain ⟨ts', hchain', hfits', hfields⟩ := h.chained hnd hts.1 hwait hts.2
        refine ⟨ts', (hopen ts').mpr ⟨hchain', (h.id hb).symm ▸ hfits'⟩, fun _ => hfields, ?_⟩
        -- a block that is settled although it waits has no templates
        intro us hus
        have hnone : b.template? = none := hwait.template?.symm.trans hus.template?
        obtain rfl := hts.1.unique hnd (.stop hnone)
        obtain rfl := hus.chained.unique hnd (.stop hnone)
        exact ⟨rfl, hchain'.unique hnd' (.stop hus.template?)⟩
      · refine ⟨[], (hopen []).mpr ⟨.stop hsettled.template?, fitsBehind_nil _ _⟩, ?_, ?_⟩
        · intro hwait
          have hnone : b.template? = none := hwait.template?.symm.trans hsettled.template?
          rw [hts.1.unique hnd (.stop hnone)]
        · exact fun us hus => ⟨hts.1.unique hnd hus.chained, rfl⟩

/-! ## What is kept as a template -/

theorem Ahead.lead_cases (h : Ahead all after) {a : Block} (ha : a ∈ all) {b' : Block}
    (hlead : Relation.TransGen (Names (all.map after)) (after a) b') :
    ∃ b ∈ all, b' = after b ∧ Relation.TransGen (Names all) a b := by
  induction hlead with
  | single hname =>
      obtain ⟨-, t, hfirst, rfl⟩ := h.names_cases ha hname
      exact ⟨t, hfirst.1, rfl, .single hfirst⟩
  | tail _ hname ih =>
      obtain ⟨b, hb, rfl, hlead⟩ := ih
      obtain ⟨-, t, hlast, rfl⟩ := h.names_cases hb hname
      exact ⟨t, hlast.1, rfl, hlead.tail hlast⟩

/-- Where references lead, they still do, unless a settled block is on the way; and then the block
is kept as a template already. -/
theorem Ahead.lead (h : Ahead all after) (hnd : (all.map Block.id).Nodup) {a : Block}
    (ha : a ∈ all) (hlead : Relation.TransGen (Names all) a b) :
    (after b).templateOnly = true
      ∨ Relation.TransGen (Names (all.map after)) (after a) (after b) := by
  -- from the first reference on, since the first settled block has noted all the rest
  induction hlead using Relation.TransGen.head_induction_on with
  | single hname =>
      rcases h.each _ ha with hwait | ⟨us, hsettled⟩
      · exact .inr (.single (h.names hwait hname))
      · exact .inl (hsettled.kept _ ((hsettled.chained.mem_iff hnd).mpr (.single hname)))
  | head hname hrest ih =>
      rcases h.each _ ha with hwait | ⟨us, hsettled⟩
      · exact (ih hname.1).imp_right fun hlead => .head (h.names hwait hname) hlead
      · exact .inl (hsettled.kept _ ((hsettled.chained.mem_iff hnd).mpr (.head hname hrest)))

/-- The same blocks are kept as templates. -/
theorem Ahead.kept_iff (h : Ahead all after) (hnd : (all.map Block.id).Nodup) (hb : b ∈ all) :
    ((after b).templateOnly = true ∨ ∃ a' ∈ all.map after, a'.popin = false
        ∧ Relation.TransGen (Names (all.map after)) a' (after b)) ↔
      b.templateOnly = true
        ∨ ∃ a ∈ all, a.popin = false ∧ Relation.TransGen (Names all) a b := by
  constructor
  · rintro (hmark | ⟨a', ha', hpop, hlead⟩)
    · exact h.used b hb hmark
    · obtain ⟨a, ha, rfl⟩ := List.mem_map.mp ha'
      obtain ⟨b', hb', heq, hlead⟩ := h.lead_cases ha hlead
      have hid : b.id = b'.id := (h.id hb).symm.trans ((congrArg Block.id heq).trans (h.id hb'))
      obtain rfl := eq_of_id hnd hb hb' hid
      exact .inr ⟨a, ha, (h.popin ha).symm.trans hpop, hlead⟩
  · rintro (hmark | ⟨a, ha, hpop, hlead⟩)
    · exact .inl (h.keeps b hb hmark)
    · refine (h.lead hnd ha hlead).imp_right fun hlead => ?_
      exact ⟨after a, List.mem_map_of_mem ha, (h.popin ha).trans hpop, hlead⟩

/-! ## All blocks -/

/-- The reference that is left of a block in the end. -/
theorem Ahead.left (h : Ahead all after) (hb : b ∈ all) :
    (if (after b).popin || (after b).template?.isNone then (after b).repeatableBlockRef
        else none) =
      if b.popin || b.template?.isNone then b.repeatableBlockRef else none := by
  rw [h.popin hb]
  rcases h.each b hb with hwait | ⟨ts, hsettled⟩
  · rw [hwait.template?, hwait.ref]
  · rw [hsettled.template?, hsettled.ref, hsettled.visible, Option.isNone_none, Bool.false_or,
      Bool.false_or, if_pos rfl]

/--
**Templates may be expanded ahead.**

Where the templates of blocks are expanded, they also are when some of the blocks are settled
before, under the same limit. The results are the same but for fields, and the fields are the same
for blocks that waited; a settled block keeps those that it has.
-/
theorem resolveRepeatables_ahead (h : Ahead all after) (hnd : (all.map Block.id).Nodup)
    {limit : Int} {out : List Block} (hres : resolveRepeatables limit all = .ok out) :
    ∃ expanded expanded' : Block → Block, out = all.map expanded
      ∧ resolveRepeatables limit (all.map after) = .ok (all.map expanded')
      ∧ ∀ b ∈ all, expanded' b = { expanded b with fields := (expanded' b).fields }
        ∧ (Waiting after b → (expanded' b).fields = (expanded b).fields)
        ∧ ∀ ts, Settled all after b ts →
          (expanded b).fields = b.fields ++ Repeatable.takenOver b ts
            ∧ (expanded' b).fields = (after b).fields := by
  obtain ⟨ts, hts, rfl⟩ := resolveRepeatables_eq_ok_iff.mp hres
  have hnd' : ((all.map after).map Block.id).Nodup := h.ids ▸ hnd
  have hsteps : ∀ b ∈ all, ∃ ts', Repeatable.templates (all.map after) limit (after b) = .ok ts'
      ∧ (Waiting after b → ts'.flatMap Block.fields = (ts b).flatMap Block.fields)
      ∧ ∀ us, Settled all after b us → ts b = us ∧ ts' = [] :=
    fun b hb => h.templates hnd hb (hts b hb)
  obtain ⟨out', hout'⟩ := resolveRepeatables_ok
    (List.forall_mem_map.mpr fun b hb => (hsteps b hb).imp fun _ hstep => hstep.1)
  obtain ⟨ts', hts', rfl⟩ := resolveRepeatables_eq_ok_iff.mp hout'
  refine ⟨_, fun b => Repeatable.expand (((all.map after).flatMap ts').map Block.id) (after b)
    (ts' (after b)), rfl, ?_, fun b hb => ?_⟩
  · rw [hout', List.map_map]
    rfl
  obtain ⟨us, hus, hwaiting, hsettled⟩ := hsteps b hb
  rw [hts' _ (List.mem_map_of_mem hb)] at hus
  cases hus
  -- no block is marked that was not, as all chains are noted: those that are left and those settled
  have hmark : ((after b).templateOnly
        || (((all.map after).flatMap ts').map Block.id).contains (after b).id) =
      (b.templateOnly || ((all.flatMap ts).map Block.id).contains b.id) := by
    rw [Bool.eq_iff_iff, Bool.or_eq_true, Bool.or_eq_true, List.contains_iff_mem,
      List.contains_iff_mem, mem_used_iff hnd' hts' (List.mem_map_of_mem hb),
      mem_used_iff hnd hts hb]
    exact h.kept_iff hnd hb
  refine ⟨?_, fun hwait => ?_, fun us hus => ⟨?_, ?_⟩⟩
  · unfold Repeatable.expand
    dsimp only
    rw [hmark, h.left hb, h.frame b hb]
  · show (after b).fields ++ Repeatable.takenOver (after b) _ = b.fields ++ _
    rw [Repeatable.takenOver, Repeatable.takenOver, hwaiting hwait, hwait.fields, h.id hb,
      h.repeatable hb]
  · rw [← (hsettled us hus).1]
    rfl
  · show (after b).fields ++ Repeatable.takenOver (after b) _ = (after b).fields
    rw [(hsettled us hus).2, Repeatable.takenOver]
    simp

end Ahead

end Formwork.Proofs
