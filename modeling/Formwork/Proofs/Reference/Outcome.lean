import Formwork.Proofs.Reference.Fixpoint
import Formwork.Proofs.Reference.Nesting

/-!
# How a resolution of sub-forms ends

Whether sub-forms can be resolved is a matter of their graph, seen from the ids that the
blocks name: everything that can be reached must be known and free of conflicts, there
must be no cycle, and no trail may be longer than the limit. What the blocks then stand
for must not repeat a block id.

These are checked in three passes, so the first kind of fault hides the later ones. The
collection reports the first id in breadth-first order that cannot be spliced
(`collectSubForms_collected`); splicing reports a trail (`run_stuck`); the scan for
repeated ids comes last. The passes after the first one see only what was collected, which
is all that can be reached, so trails through it are trails through the catalog.
-/

namespace Formwork.Proofs

open Formwork

/-! ## Conditions on the graph -/

/-- What the roots lead to can be collected. -/
structure Collectable (docs : String → Option SubForm) (roots : List String) : Prop where
  /-- Everything that can be reached is known. -/
  registered : ∀ id, Reached docs roots id → ∃ f, docs id = some f
  /-- No block of what can be reached names both a sub-form and a template. -/
  unconflicted :
    ∀ id f, Reached docs roots id → docs id = some f → ∀ b ∈ f.blocks, b.isConflicting = false

/-- What the roots lead to can be spliced under the limit. -/
structure Spliceable (docs : String → Option SubForm) (roots : List String) (limit : Int) :
    Prop where
  /-- Nothing that can be reached leads back to itself. -/
  acyclic : Acyclic docs roots
  /-- No trail has more ids than the limit. -/
  within : Within docs roots limit

section Conditions

variable {docs : String → Option SubForm} {roots : List String}

theorem collectable_iff :
    Collectable docs roots ↔ ∀ id, Reached docs roots id → Sound docs id := by
  constructor
  · intro h id hid
    obtain ⟨f, hf⟩ := h.registered id hid
    exact ⟨f, hf, h.unconflicted id f hid hf⟩
  · intro h
    refine ⟨fun id hid => ?_, fun id f hid hf => ?_⟩
    · obtain ⟨f, hf, -⟩ := h id hid
      exact ⟨f, hf⟩
    · obtain ⟨f', hf', hfree⟩ := h id hid
      rw [hf] at hf'
      cases hf'
      exact hfree

theorem FirstUnsound.not_collectable {id : String} (h : FirstUnsound docs roots id) :
    ¬ Collectable docs roots :=
  fun hcol => h.not_sound (collectable_iff.mp hcol id h.reached)

end Conditions

/-! ## The graph of what was collected -/

section Agreement

variable {docs docs' : String → Option SubForm} {roots : List String}

theorem isChain_congr (hagree : ∀ id, Reached docs roots id → docs' id = docs id) {l : List String}
    {a : String} (ha : Reached docs roots a) :
    (a :: l).IsChain (LeadsTo docs') ↔ (a :: l).IsChain (LeadsTo docs) := by
  induction l generalizing a with
  | nil => exact ⟨fun _ => .singleton a, fun _ => .singleton a⟩
  | cons b l ih =>
      have hstep : LeadsTo docs' a b ↔ LeadsTo docs a b := by
        rw [LeadsTo, LeadsTo, successors, successors, hagree a ha]
      rw [List.isChain_cons_cons, List.isChain_cons_cons, hstep]
      exact and_congr_right fun hab => ih (ha.step hab)

/-- Documents that agree on what can be reached have the same trails. -/
theorem trail_congr (hagree : ∀ id, Reached docs roots id → docs' id = docs id)
    {ids : List String} : Trail docs' roots ids ↔ Trail docs roots ids := by
  refine exists_congr fun r => exists_congr fun rest => and_congr_right ?_
  rintro rfl
  exact and_congr_right fun hr => isChain_congr hagree (.root hr)

end Agreement

section Given

variable {catalog given : Catalog} {roots : List String}
  (hkeys : ∀ id, id ∈ Ordered.keys given ↔ Reached (Ordered.get? catalog) roots id)
  (hgiven : ∀ entry ∈ given, Ordered.get? catalog entry.1 = some entry.2
    ∧ Sound (Ordered.get? catalog) entry.1)

include hkeys

theorem get?_given_isSome {id : String} (hid : Reached (Ordered.get? catalog) roots id) :
    ∃ f, Ordered.get? given id = some f := by
  have hhas : Ordered.has given id = true := has_iff.mpr ((hkeys id).mpr hid)
  exact Option.isSome_iff_exists.mp hhas

include hgiven

theorem get?_given {id : String} (hid : Reached (Ordered.get? catalog) roots id) :
    Ordered.get? given id = Ordered.get? catalog id := by
  obtain ⟨f, hf⟩ := get?_given_isSome hkeys hid
  rw [hf, (hgiven (id, f) (mem_of_get? hf)).1]

theorem collectable_of_given : Collectable (Ordered.get? catalog) roots := by
  refine collectable_iff.mpr fun id hid => ?_
  obtain ⟨entry, he, rfl⟩ := List.mem_map.mp ((hkeys id).mpr hid)
  exact (hgiven entry he).2

end Given

/-! ## The three passes -/

/-- Distinct ids do not repeat. -/
theorem firstRepeated?_of_nodup {seen ids : List String} (hnd : ids.Nodup)
    (hout : ∀ id ∈ ids, id ∉ seen) : firstRepeated? seen ids = none := by
  induction ids generalizing seen with
  | nil => rfl
  | cons id ids ih =>
      obtain ⟨hid, hnd⟩ := List.nodup_cons.mp hnd
      have hnew : seen.contains id = false := by
        simpa using hout id (List.mem_cons_self ..)
      rw [firstRepeated?, hnew, if_neg Bool.false_ne_true]
      refine ih hnd fun id' hid' => ?_
      intro hmem
      rcases List.mem_cons.mp hmem with rfl | hmem
      · exact hid hid'
      · exact hout id' (List.mem_cons_of_mem _ hid') hmem

/-- How a resolution from a catalog ends. -/
inductive Resolved (catalog : Catalog) (limit : Int) (bs : List Block) :
    Except ReferenceError (List Block) → Prop where
  /-- The first fault in breadth-first order is an id that is not known. -/
  | missing {id : String} :
      FirstUnsound (Ordered.get? catalog) (expansionIds bs) id → Ordered.get? catalog id = none →
      Resolved catalog limit bs (.error (.missingSubForm id (sortIds (Ordered.keys catalog))))
  /-- The first fault in breadth-first order is a conflict. -/
  | conflict {id : String} {f : SubForm} {b : Block} :
      FirstUnsound (Ordered.get? catalog) (expansionIds bs) id →
      Ordered.get? catalog id = some f → f.blocks.find? Block.isConflicting = some b →
      Resolved catalog limit bs (.error (.conflicting b.id))
  /-- A trail came to an id again. -/
  | cyclic {ids : List String} {id : String} :
      Collectable (Ordered.get? catalog) (expansionIds bs) →
      Trail (Ordered.get? catalog) (expansionIds bs) (ids ++ [id]) → id ∈ ids →
      Resolved catalog limit bs (.error (.cyclic id (ids ++ [id])))
  /-- A trail was longer than the limit. -/
  | deep {ids : List String} {id : String} :
      Collectable (Ordered.get? catalog) (expansionIds bs) →
      Trail (Ordered.get? catalog) (expansionIds bs) (ids ++ [id]) → limit ≤ ids.length →
      Resolved catalog limit bs (.error (.depthExceeded id (ids.length + 1) limit))
  /-- The blocks have an expansion, in which an id repeats. -/
  | duplicate {out : List Block} {id : String} :
      Collectable (Ordered.get? catalog) (expansionIds bs) →
      Spliceable (Ordered.get? catalog) (expansionIds bs) limit →
      Expands (Ordered.get? catalog) bs "" out → firstRepeated? [] (out.map Block.id) = some id →
      Resolved catalog limit bs (.error (.duplicateBlock id))
  /-- The blocks have an expansion, in which no id repeats. -/
  | done {out : List Block} :
      Collectable (Ordered.get? catalog) (expansionIds bs) →
      Spliceable (Ordered.get? catalog) (expansionIds bs) limit →
      Expands (Ordered.get? catalog) bs "" out → (out.map Block.id).Nodup →
      Resolved catalog limit bs (.ok out)

section Splicing

variable {catalog given : Catalog} {limit : Int} {bs : List Block}

/-- A run that ends well has gone along all trails from the blocks. -/
theorem within_of_run {out : List Block}
    (h : Splice.run given limit [] (Splice.enterAll bs "") = .ok out) :
    Within (Ordered.get? given) (expansionIds bs) limit := by
  have hroom := run_hasRoom h
  rw [← List.append_nil (Splice.enterAll bs "")] at hroom
  rintro ids ⟨r, rest, rfl, hr, hchain⟩
  obtain ⟨b, hb, hid⟩ := List.mem_filterMap.mp hr
  have hle := (throughout_enterAll.mp hroom).1 b hb r rest hid hchain
  rwa [List.length_nil, Nat.zero_add] at hle

theorem stuck_of_run {e : ReferenceError}
    (h : Splice.run given limit [] (Splice.enterAll bs "") = .error e) :
    Stuck given (expansionIds bs) limit e := by
  refine run_stuck ?_ h
  rw [← List.append_nil (Splice.enterAll bs "")]
  refine throughout_enterAll.mpr ⟨fun b hb id hid => ?_, trivial⟩
  exact .root (List.mem_filterMap.mpr ⟨b, hb, hid⟩)

/-- Splicing what was collected ends as the graph of the catalog says. -/
theorem spliceSubForms_resolved
    (hkeys : ∀ id, id ∈ Ordered.keys given ↔
      Reached (Ordered.get? catalog) (expansionIds bs) id)
    (hgiven : ∀ entry ∈ given, Ordered.get? catalog entry.1 = some entry.2
      ∧ Sound (Ordered.get? catalog) entry.1) :
    Resolved catalog limit bs (spliceSubForms given limit bs) := by
  have hcol := collectable_of_given hkeys hgiven
  have htrail : ∀ {ids}, Trail (Ordered.get? given) (expansionIds bs) ids ↔
      Trail (Ordered.get? catalog) (expansionIds bs) ids :=
    trail_congr fun _ => get?_given hkeys hgiven
  unfold spliceSubForms
  cases hrun : Splice.run given limit [] (Splice.enterAll bs "") with
  | error e =>
      cases stuck_of_run hrun with
      | cyclic hids hid => exact .cyclic hcol (htrail.mp hids) hid
      | deep hids hlimit => exact .deep hcol (htrail.mp hids) hlimit
      | absent hids hnone =>
          have hreached := (htrail.mp hids).reached (List.mem_append_right _ (List.mem_cons_self ..))
          obtain ⟨f, hf⟩ := get?_given_isSome hkeys hreached
          rw [hnone] at hf
          cases hf
  | ok spliced =>
      have hwithin : Within (Ordered.get? catalog) (expansionIds bs) limit :=
        fun ids hids => within_of_run hrun ids (htrail.mpr hids)
      have hexp : Expands (Ordered.get? catalog) bs "" spliced :=
        (run_expands hrun).mono fun id f hf => (hgiven (id, f) (mem_of_get? hf)).1
      simp only [bind, Except.bind]
      cases hrep : firstRepeated? [] (spliced.map Block.id) with
      | some id => exact .duplicate hcol ⟨hwithin.acyclic, hwithin⟩ hexp hrep
      | none => exact .done hcol ⟨hwithin.acyclic, hwithin⟩ hexp (firstRepeated?_eq_none hrep).1

end Splicing

theorem resolveSubForms_resolved {σ : Type} (catalog : Catalog) (limit : Int) {bs : List Block}
    (hnd : (bs.map Block.id).Nodup) (s : σ) :
    ∃ outcome, resolveSubForms (.ofCatalog catalog) limit bs s = (outcome, s)
      ∧ Resolved catalog limit bs outcome := by
  obtain ⟨outcome, hcol, hcollected⟩ := collectSubForms_collected catalog bs s
  cases hcollected with
  | missing hfirst hnone =>
      exact ⟨_, by rw [resolveSubForms, hcol], .missing hfirst hnone⟩
  | conflict hfirst hget hfind =>
      exact ⟨_, by rw [resolveSubForms, hcol], .conflict hfirst hget hfind⟩
  | @all given hkeys hgiven =>
      cases given with
      | cons entry given =>
          exact ⟨_, resolveSubForms_eq hcol limit, spliceSubForms_resolved hkeys hgiven⟩
      | nil =>
          have hnone : expansionIds bs = [] := expansionIds_of_collect_nil hcol
          have hself := expands_self (Ordered.get? catalog) (expansionIds_eq_nil_iff.mp hnone)
          -- there is no root to begin a trail at
          have hwithin : Within (Ordered.get? catalog) (expansionIds bs) limit := by
            rintro ids ⟨r, rest, -, hr, -⟩
            rw [hnone] at hr
            exact absurd hr List.not_mem_nil
          exact ⟨_, by rw [resolveSubForms, hcol],
            .done (collectable_of_given hkeys hgiven) ⟨hwithin.acyclic, hwithin⟩ hself hnd⟩

/-! ## The verdict -/

/-- How the graph of sub-forms decides what a resolution ends with. -/
structure Verdict (catalog : Catalog) (limit : Int) (bs : List Block)
    (outcome : Except ReferenceError (List Block)) : Prop where
  /-- It ends well where all conditions hold, with what the blocks stand for. -/
  done : ∀ out, outcome = .ok out ↔
    Collectable (Ordered.get? catalog) (expansionIds bs)
      ∧ Spliceable (Ordered.get? catalog) (expansionIds bs) limit
      ∧ Expands (Ordered.get? catalog) bs "" out ∧ (out.map Block.id).Nodup
  /-- Where not everything can be collected, a missing sub-form or a conflict is reported. -/
  uncollected :
    (∃ id ids, outcome = .error (.missingSubForm id ids))
        ∨ (∃ id, outcome = .error (.conflicting id)) ↔
      ¬ Collectable (Ordered.get? catalog) (expansionIds bs)
  /-- Where it can be, but not spliced, a cycle or a depth is reported. -/
  unspliced :
    (∃ id chain, outcome = .error (.cyclic id chain))
        ∨ (∃ id depth most, outcome = .error (.depthExceeded id depth most)) ↔
      Collectable (Ordered.get? catalog) (expansionIds bs)
        ∧ ¬ Spliceable (Ordered.get? catalog) (expansionIds bs) limit
  /-- Where it can be spliced as well, the blocks stand for something, and what is reported, if
  anything, is an id that repeats in it. -/
  repeated :
    Collectable (Ordered.get? catalog) (expansionIds bs) →
    Spliceable (Ordered.get? catalog) (expansionIds bs) limit →
    ∃ out, Expands (Ordered.get? catalog) bs "" out
      ∧ (outcome = .ok out ∨ ∃ id, firstRepeated? [] (out.map Block.id) = some id
          ∧ ¬ (out.map Block.id).Nodup ∧ outcome = .error (.duplicateBlock id))
  /-- A missing id is the first one in breadth-first order that cannot be spliced. -/
  missing : ∀ id ids, outcome = .error (.missingSubForm id ids) ↔
    FirstUnsound (Ordered.get? catalog) (expansionIds bs) id
      ∧ Ordered.get? catalog id = none ∧ ids = sortIds (Ordered.keys catalog)
  /-- A conflict is the first one in the first sub-form that cannot be spliced. -/
  conflict : ∀ blockId, outcome = .error (.conflicting blockId) ↔
    ∃ id f b, FirstUnsound (Ordered.get? catalog) (expansionIds bs) id
      ∧ Ordered.get? catalog id = some f ∧ f.blocks.find? Block.isConflicting = some b
      ∧ blockId = b.id
  /-- The chain of a cycle is a trail whose last id has occurred before. -/
  cyclic : ∀ id chain, outcome = .error (.cyclic id chain) →
    Trail (Ordered.get? catalog) (expansionIds bs) chain
      ∧ ∃ ids, chain = ids ++ [id] ∧ id ∈ ids
  /-- A depth is that of a trail which is longer than the limit. -/
  deep : ∀ id depth most, outcome = .error (.depthExceeded id depth most) →
    most = limit ∧ limit < depth
      ∧ ∃ ids, Trail (Ordered.get? catalog) (expansionIds bs) (ids ++ [id])
        ∧ (ids ++ [id]).length = depth

section Deciding

variable {catalog : Catalog} {limit : Int} {bs : List Block}
  {outcome : Except ReferenceError (List Block)}

theorem not_nodup_of_firstRepeated? {ids : List String} {id : String}
    (h : firstRepeated? [] ids = some id) : ¬ ids.Nodup := by
  intro hnd
  rw [firstRepeated?_of_nodup hnd fun _ _ => List.not_mem_nil] at h
  cases h

/-- Everything can be collected unless the collection reports something. -/
theorem Resolved.uncollected (h : Resolved catalog limit bs outcome) :
    (∃ id ids, outcome = .error (.missingSubForm id ids))
        ∨ (∃ id, outcome = .error (.conflicting id)) ↔
      ¬ Collectable (Ordered.get? catalog) (expansionIds bs) := by
  cases h with
  | missing hfirst _ => simp [hfirst.not_collectable]
  | conflict hfirst _ _ => simp [hfirst.not_collectable]
  | cyclic hcol _ _ => simp [hcol]
  | deep hcol _ _ => simp [hcol]
  | duplicate hcol _ _ _ => simp [hcol]
  | done hcol _ _ _ => simp [hcol]

theorem Resolved.unspliced (h : Resolved catalog limit bs outcome) :
    (∃ id chain, outcome = .error (.cyclic id chain))
        ∨ (∃ id depth most, outcome = .error (.depthExceeded id depth most)) ↔
      Collectable (Ordered.get? catalog) (expansionIds bs)
        ∧ ¬ Spliceable (Ordered.get? catalog) (expansionIds bs) limit := by
  cases h with
  | missing hfirst _ => simp [hfirst.not_collectable]
  | conflict hfirst _ _ => simp [hfirst.not_collectable]
  | cyclic hcol hids hid =>
      have hnot : ¬ Spliceable (Ordered.get? catalog) (expansionIds bs) limit :=
        fun h => h.acyclic _ (hids.reached (List.mem_append_left _ hid)) (hids.cycle hid)
      simp [hcol, hnot]
  | deep hcol hids hlimit =>
      have hnot : ¬ Spliceable (Ordered.get? catalog) (expansionIds bs) limit := by
        intro h
        have hle := h.within _ hids
        rw [List.length_append, List.length_singleton] at hle
        omega
      simp [hcol, hnot]
  | duplicate _ hspl _ _ => simp [hspl]
  | done _ hspl _ _ => simp [hspl]

/-- Where all can be collected and spliced, only a repeated id can be reported. -/
theorem Resolved.repeated (h : Resolved catalog limit bs outcome)
    (hcol : Collectable (Ordered.get? catalog) (expansionIds bs))
    (hspl : Spliceable (Ordered.get? catalog) (expansionIds bs) limit) :
    ∃ out, Expands (Ordered.get? catalog) bs "" out
      ∧ (outcome = .ok out ∨ ∃ id, firstRepeated? [] (out.map Block.id) = some id
          ∧ ¬ (out.map Block.id).Nodup ∧ outcome = .error (.duplicateBlock id)) := by
  have hcollected := mt h.uncollected.mp (not_not_intro hcol)
  have hspliced := mt h.unspliced.mp fun hnot => hnot.2 hspl
  cases h with
  | missing => exact absurd (.inl ⟨_, _, rfl⟩) hcollected
  | conflict => exact absurd (.inr ⟨_, rfl⟩) hcollected
  | cyclic => exact absurd (.inl ⟨_, _, rfl⟩) hspliced
  | deep => exact absurd (.inr ⟨_, _, _, rfl⟩) hspliced
  | duplicate _ _ hexp hrep =>
      exact ⟨_, hexp, .inr ⟨_, hrep, not_nodup_of_firstRepeated? hrep, rfl⟩⟩
  | done _ _ hexp _ => exact ⟨_, hexp, .inl rfl⟩

theorem Resolved.verdict (h : Resolved catalog limit bs outcome) :
    Verdict catalog limit bs outcome where
  done out := by
    constructor
    · rintro rfl
      cases h with
      | done hcol hspl hexp hnd => exact ⟨hcol, hspl, hexp, hnd⟩
    · rintro ⟨hcol, hspl, hexp, hnd⟩
      obtain ⟨out', hexp', hok | ⟨id, -, hrep, -⟩⟩ := h.repeated hcol hspl
      · rw [hok, hexp'.unique hexp]
      · exact absurd (hexp'.unique hexp ▸ hnd) hrep
  uncollected := h.uncollected
  unspliced := h.unspliced
  repeated := h.repeated
  missing id ids := by
    constructor
    · rintro rfl
      cases h with
      | missing hfirst hnone => exact ⟨hfirst, hnone, rfl⟩
    · rintro ⟨hfirst, hnone, rfl⟩
      have hfault := h.uncollected.mpr hfirst.not_collectable
      cases h with
      | missing hfirst' _ => rw [hfirst'.unique hfirst]
      | conflict hfirst' hget _ =>
          rw [hfirst'.unique hfirst, hnone] at hget
          cases hget
      | _ => simp at hfault
  conflict blockId := by
    constructor
    · rintro rfl
      cases h with
      | conflict hfirst hget hfind => exact ⟨_, _, _, hfirst, hget, hfind, rfl⟩
    · rintro ⟨id, f, b, hfirst, hget, hfind, rfl⟩
      have hfault := h.uncollected.mpr hfirst.not_collectable
      cases h with
      | missing hfirst' hnone =>
          rw [hfirst'.unique hfirst, hget] at hnone
          cases hnone
      | conflict hfirst' hget' hfind' =>
          rw [hfirst'.unique hfirst, hget] at hget'
          cases hget'
          rw [hfind] at hfind'
          cases hfind'
          rfl
      | _ => simp at hfault
  cyclic id chain := by
    rintro rfl
    cases h with
    | cyclic _ hids hid => exact ⟨hids, _, rfl, hid⟩
  deep id depth most := by
    rintro rfl
    cases h with
    | deep _ hids hlimit => exact ⟨rfl, by omega, _, hids, by simp⟩

end Deciding

/--
**The graph of sub-forms decides how a resolution ends.**

For blocks of distinct ids, a catalog and a limit: the resolution ends well if and only if everything
that can be reached is known and free of conflicts, there is no cycle, no trail is longer than the
limit, and no id repeats in what the blocks stand for, which is then the result. Otherwise it reports
the first kind of fault in this order. So what resolves under a limit resolves to the same under
every greater one.
-/
theorem resolution_decided {σ : Type} (catalog : Catalog) {bs : List Block}
    (hnd : (bs.map Block.id).Nodup) :
    (∀ (limit : Int) (s : σ), ∃ outcome,
        resolveSubForms (.ofCatalog catalog) limit bs s = (outcome, s)
          ∧ Verdict catalog limit bs outcome)
      ∧ ∀ (limit limit' : Int) (s : σ) (out : List Block), limit ≤ limit' →
          resolveSubForms (.ofCatalog catalog) limit bs s = (.ok out, s) →
          resolveSubForms (.ofCatalog catalog) limit' bs s = (.ok out, s) := by
  have hverdict : ∀ (limit : Int) (s : σ), ∃ outcome,
      resolveSubForms (.ofCatalog catalog) limit bs s = (outcome, s)
        ∧ Verdict catalog limit bs outcome := by
    intro limit s
    obtain ⟨outcome, heq, hres⟩ := resolveSubForms_resolved catalog limit hnd s
    exact ⟨outcome, heq, hres.verdict⟩
  refine ⟨hverdict, ?_⟩
  intro limit limit' s out hle hok
  obtain ⟨outcome, heq, hv⟩ := hverdict limit s
  obtain ⟨outcome', heq', hv'⟩ := hverdict limit' s
  rw [hok] at heq
  obtain ⟨hcol, hspl, hexp, hdistinct⟩ := (hv.done out).mp (Prod.mk.inj heq).1.symm
  have hwithin : Within (Ordered.get? catalog) (expansionIds bs) limit' :=
    fun ids hids => Int.le_trans (hspl.within ids hids) hle
  rw [heq', (hv'.done out).mpr ⟨hcol, ⟨hspl.acyclic, hwithin⟩, hexp, hdistinct⟩]

/-! ## A ring of two -/

/-- Two sub-forms that stand for each other. -/
def ringCatalog : Catalog :=
  [("a", ⟨"a", "A", "1.0", [fieldBlock "left" [], useBlock "toB" "b" ""], none⟩),
    ("b", ⟨"b", "B", "1.0", [useBlock "toA" "a" ""], none⟩)]

/-- The ring is gone round once, and then its chain is reported. -/
theorem resolution_decided_ring :
    ([useBlock "x" "a" ""].map Block.id).Nodup
      ∧ resolveSubForms (.ofCatalog ringCatalog : Provider Unit) 50 [useBlock "x" "a" ""] () =
        (.error (.cyclic "a" ["a", "b", "a"]), ())
      ∧ ¬ Spliceable (Ordered.get? ringCatalog) ["a"] 50
      ∧ Trail (Ordered.get? ringCatalog) ["a"] ["a", "b", "a"] := by
  have hcol : collectSubForms (.ofCatalog ringCatalog : Provider Unit) [useBlock "x" "a" ""] () =
      (.ok ringCatalog, ()) := by rfl
  have hsplice : spliceSubForms ringCatalog 50 [useBlock "x" "a" ""] =
      .error (.cyclic "a" ["a", "b", "a"]) := by
    unfold spliceSubForms
    rw [Splice.enterAll, List.map_cons, List.map_nil, run_splice rfl rfl (by decide) rfl]
    show Splice.run _ _ _ (.enter _ _ :: .enter (useBlock "toB" "b" "") _ :: _) >>= _ = _
    rw [run_keep rfl, run_splice rfl rfl (by decide) rfl]
    show Except.map _ (Splice.run _ _ _ (.enter (useBlock "toA" "a" "") _ :: _)) >>= _ = _
    rw [Splice.run]
    rfl
  have hres : resolveSubForms (.ofCatalog ringCatalog : Provider Unit) 50 [useBlock "x" "a" ""] () =
      (.error (.cyclic "a" ["a", "b", "a"]), ()) := by
    rw [← hsplice]
    exact resolveSubForms_eq hcol 50
  have hnd : ([useBlock "x" "a" ""].map Block.id).Nodup := by decide
  obtain ⟨outcome, heq, hv⟩ := (resolution_decided ringCatalog hnd).1 50 ()
  rw [hres] at heq
  obtain rfl := (Prod.mk.inj heq).1
  exact ⟨hnd, hres, (hv.unspliced.mp (.inl ⟨_, _, rfl⟩)).2, (hv.cyclic _ _ rfl).1⟩

end Formwork.Proofs
