import Formwork.Proofs.Reference.Breadth
import Formwork.Proofs.Reference.Expansion
import Mathlib.Data.List.Chain

/-!
# How deep sub-forms are nested

A trail follows references from a root, and splicing is always at the end of one: the
sub-forms in progress, outermost first, and the one that a block on the stack stands for.
So a splice that fails reports a trail, which goes back into itself or is too long.

A splice that ends well has been everywhere. Whatever a block on its stack leads to has
been entered above the sub-forms in progress there, so no trail is longer than the limit,
and as a cycle would make trails of every length, there is none.
-/

namespace Formwork.Proofs

open Formwork

/-! ## Trails -/

section Trails

variable (docs : String → Option SubForm) (roots : List String)

/-- Ids that begin at a root, each of which leads to the next one. -/
def Trail (ids : List String) : Prop :=
  ∃ r rest, ids = r :: rest ∧ r ∈ roots ∧ ids.IsChain (LeadsTo docs)

/-- Nothing that can be reached leads back to itself. -/
def Acyclic : Prop := ∀ id, Reached docs roots id → ¬ Relation.TransGen (LeadsTo docs) id id

/-- No trail has more ids than the limit. -/
def Within (limit : Int) : Prop := ∀ ids, Trail docs roots ids → (ids.length : Int) ≤ limit

end Trails

section TrailLemmas

variable {docs : String → Option SubForm} {roots ids : List String} {a b : String}

theorem Trail.root {r : String} (hr : r ∈ roots) : Trail docs roots [r] :=
  ⟨r, [], rfl, hr, .singleton r⟩

/-- A trail goes on with whatever its last id leads to. -/
theorem Trail.snoc (h : Trail docs roots (ids ++ [a])) (hab : LeadsTo docs a b) :
    Trail docs roots (ids ++ [a] ++ [b]) := by
  obtain ⟨r, rest, heq, hr, hchain⟩ := h
  refine ⟨r, rest ++ [b], by rw [heq, List.cons_append], hr, ?_⟩
  refine List.isChain_append.mpr ⟨hchain, .singleton b, ?_⟩
  intro x hx y hy
  rw [List.getLast?_concat] at hx
  cases hx
  cases hy
  exact hab

/-- What can be reached is the end of a trail. -/
theorem Reached.trail (h : Reached docs roots a) : ∃ ids, Trail docs roots (ids ++ [a]) := by
  refine h.closed (P := fun a => ∃ ids, Trail docs roots (ids ++ [a])) ?_ ?_
  · exact fun r hr => ⟨[], .root hr⟩
  · rintro a b ⟨ids, hids⟩ hab
    exact ⟨ids ++ [a], hids.snoc hab⟩

/-- What a chain comes to after an id, that id leads to. -/
theorem transGen_of_isChain {l : List String} (h : (a :: l).IsChain (LeadsTo docs)) (hb : b ∈ l) :
    Relation.TransGen (LeadsTo docs) a b := by
  have htrans : (a :: l).IsChain (Relation.TransGen (LeadsTo docs)) := h.imp fun _ _ => .single
  exact (List.pairwise_cons.mp (List.isChain_iff_pairwise.mp htrans)).1 b hb

theorem Trail.reached (h : Trail docs roots ids) (ha : a ∈ ids) : Reached docs roots a := by
  obtain ⟨r, rest, rfl, hr, hchain⟩ := h
  rcases List.mem_cons.mp ha with rfl | ha
  · exact .root hr
  · exact ⟨r, hr, (transGen_of_isChain hchain ha).to_reflTransGen⟩

/-- A trail that comes to an id again has gone round a cycle. -/
theorem Trail.cycle (h : Trail docs roots (ids ++ [a])) (ha : a ∈ ids) :
    Relation.TransGen (LeadsTo docs) a a := by
  obtain ⟨before, after, rfl⟩ := List.append_of_mem ha
  obtain ⟨-, -, -, -, hchain⟩ := h
  rw [List.append_assoc] at hchain
  exact transGen_of_isChain (List.isChain_append.mp hchain).2.1 (by simp)

/-- A trail that ends where a cycle begins goes once round it. -/
theorem Trail.round (h : Trail docs roots (ids ++ [a]))
    (hab : Relation.TransGen (LeadsTo docs) a b) :
    ∃ ids', Trail docs roots (ids' ++ [b]) ∧ ids.length < ids'.length := by
  induction hab with
  | single hab => exact ⟨_, h.snoc hab, by simp⟩
  | tail _ hbc ih =>
      obtain ⟨ids', hids', hlen⟩ := ih
      refine ⟨_, hids'.snoc hbc, ?_⟩
      rw [List.length_append]
      omega

/-- **Where trails are bounded, there are no cycles.** -/
theorem Within.acyclic {limit : Int} (h : Within docs roots limit) : Acyclic docs roots := by
  intro id hid hcycle
  have hlong : ∀ n, ∃ ids, Trail docs roots (ids ++ [id]) ∧ n ≤ ids.length := by
    intro n
    induction n with
    | zero =>
        obtain ⟨ids, hids⟩ := hid.trail
        exact ⟨ids, hids, Nat.zero_le _⟩
    | succ n ih =>
        obtain ⟨ids, hids, hlen⟩ := ih
        obtain ⟨ids', hids', hlen'⟩ := hids.round hcycle
        exact ⟨ids', hids', by omega⟩
  obtain ⟨ids, hids, hlen⟩ := hlong limit.toNat
  have hle := h _ hids
  rw [List.length_append, List.length_singleton] at hle
  omega

end TrailLemmas

/-! ## Stacks with the sub-forms in progress -/

/-- What holds of every block of a stack and the sub-forms that are in progress where it is entered,
innermost first. -/
def Throughout (P : List String → Block → Prop) : List String → List SpliceTask → Prop
  | _, [] => True
  | path, .enter b _ :: rest => P path b ∧ Throughout P path rest
  | path, .leave :: rest => Throughout P path.tail rest

theorem throughout_enterAll {P : List String → Block → Prop} {path : List String} {bs : List Block}
    {suffix : String} {tasks : List SpliceTask} :
    Throughout P path (Splice.enterAll bs suffix ++ tasks) ↔
      (∀ b ∈ bs, P path b) ∧ Throughout P path tasks := by
  induction bs with
  | nil => simp [Splice.enterAll]
  | cons b bs ih =>
      show P path b ∧ Throughout P path (Splice.enterAll bs suffix ++ tasks) ↔ _
      rw [ih, List.forall_mem_cons, and_assoc]

section Runs

variable {catalog : Catalog} {limit : Int}

theorem leadsTo_of_get? {id id' : String} {f : SubForm} {b : Block}
    (hget : Ordered.get? catalog id = some f) (hb : b ∈ f.blocks) (hid : b.expansion? = some id') :
    LeadsTo (Ordered.get? catalog) id id' := by
  rw [LeadsTo, successors, hget]
  exact List.mem_filterMap.mpr ⟨b, hb, hid⟩

/-- What a block stands for ends a trail that goes over the sub-forms in progress. -/
def EndsTrail (docs : String → Option SubForm) (roots path : List String) (b : Block) : Prop :=
  ∀ id, b.expansion? = some id → Trail docs roots (path.reverse ++ [id])

/-- Why a run of splicing fails. -/
inductive Stuck (catalog : Catalog) (roots : List String) (limit : Int) : ReferenceError → Prop where
  /-- A trail came to an id again. -/
  | cyclic {ids : List String} {id : String} :
      Trail (Ordered.get? catalog) roots (ids ++ [id]) → id ∈ ids →
      Stuck catalog roots limit (.cyclic id (ids ++ [id]))
  /-- A trail was longer than the limit. -/
  | deep {ids : List String} {id : String} :
      Trail (Ordered.get? catalog) roots (ids ++ [id]) → limit ≤ ids.length →
      Stuck catalog roots limit (.depthExceeded id (ids.length + 1) limit)
  /-- A trail came to an id that is not there. -/
  | absent {ids : List String} {id : String} :
      Trail (Ordered.get? catalog) roots (ids ++ [id]) → Ordered.get? catalog id = none →
      Stuck catalog roots limit (.missingSubForm id [])

/-- **A run of splicing fails at the end of a trail.** -/
theorem run_stuck {roots path : List String} {tasks : List SpliceTask} {e : ReferenceError}
    (hends : Throughout (EndsTrail (Ordered.get? catalog) roots) path tasks)
    (h : Splice.run catalog limit path tasks = .error e) : Stuck catalog roots limit e := by
  fun_induction Splice.run catalog limit path tasks with
  | case1 => cases h
  | case2 path rest ih => exact ih hends h
  | case3 path b suffix rest hb ih =>
      cases hrun : Splice.run catalog limit path rest with
      | ok out => rw [hrun] at h; cases h
      | error e' =>
          rw [hrun] at h
          cases h
          exact ih hends.2 hrun
  | case4 path b suffix rest id hid hpath =>
      cases h
      refine .cyclic (hends.1 id hid) ?_
      simpa using hpath
  | case5 path b suffix rest id hid _ hroom =>
      cases h
      rw [← List.length_reverse]
      refine .deep (hends.1 id hid) ?_
      rwa [List.length_reverse]
  | case6 path b suffix rest id hid _ _ hget =>
      cases h
      exact .absent (hends.1 id hid) hget
  | case7 path b suffix rest id hid _ _ f hget ih =>
      refine ih (throughout_enterAll.mpr ⟨?_, hends.2⟩) h
      -- the blocks inside end the trail that goes on with the sub-form
      intro b' hb' id' hid'
      rw [List.reverse_cons]
      exact (hends.1 id hid).snoc (leadsTo_of_get? hget hb' hid')

/-- There is room for all that a block leads to, over the sub-forms in progress. -/
def HasRoom (docs : String → Option SubForm) (limit : Int) (path : List String) (b : Block) : Prop :=
  ∀ id rest, b.expansion? = some id → (id :: rest).IsChain (LeadsTo docs) →
    ((path.length + (id :: rest).length : Nat) : Int) ≤ limit

/-- **A run of splicing that ends well had room for all that its stack leads to.** -/
theorem run_hasRoom {path : List String} {tasks : List SpliceTask} {out : List Block}
    (h : Splice.run catalog limit path tasks = .ok out) :
    Throughout (HasRoom (Ordered.get? catalog) limit) path tasks := by
  fun_induction Splice.run catalog limit path tasks generalizing out with
  | case1 => trivial
  | case2 path rest ih => exact ih h
  | case3 path b suffix rest hb ih =>
      constructor
      · intro id more hid
        rw [hb] at hid
        cases hid
      · cases hrun : Splice.run catalog limit path rest with
        | error e => rw [hrun] at h; cases h
        | ok out' => exact ih hrun
  | case4 => cases h
  | case5 => cases h
  | case6 => cases h
  | case7 path b suffix rest id hid _ hroom f hget ih =>
      obtain ⟨hinside, hrest⟩ := throughout_enterAll.mp (ih h)
      refine ⟨?_, hrest⟩
      intro id' more hid' hchain
      rw [hid] at hid'
      cases hid'
      cases more with
      | nil => simp only [List.length_singleton]; omega
      | cons next more =>
          -- the next id is one that a block inside stands for
          obtain ⟨hnext, hmore⟩ := List.isChain_cons_cons.mp hchain
          rw [LeadsTo, successors, hget] at hnext
          obtain ⟨b', hb', hid'⟩ := List.mem_filterMap.mp hnext
          have hle := hinside b' hb' next more hid' hmore
          simp only [List.length_cons] at hle ⊢
          omega

end Runs

end Formwork.Proofs
