import Formwork.Proofs.Reference.Collection
import Mathlib.Logic.Relation

/-!
# The order in which sub-forms are asked for

Sub-forms refer to each other by id, so they make a graph. Breadth-first order is the
order of its waves: the ids that the blocks name, then all that those lead to, and so on,
each wave in document order and with all its repetitions (`wave`).

A collection keeps a queue without what it has fetched, so what it pops is not the waves
but less. Two relations connect them. A window over the waves (`Window`) is what the queue
would be if nothing was ever left out; the queue itself is a window thinned of what was
seen before (`Thins`). As nothing seen is faulty, the first fault that is popped is the
first one in the waves. And what is fetched when the queue has run dry is closed, so it is
what can be reached (`Surveyed`).
-/

namespace Formwork.Proofs

open Formwork

/-! ## The graph of sub-forms -/

section Graph

variable (docs : String → Option SubForm) (roots : List String)

/-- The sub-forms that a sub-form leads to, in order. -/
def successors (id : String) : List String :=
  match docs id with
  | some f => expansionIds f.blocks
  | none => []

/-- One sub-form has a block that stands for another. -/
def LeadsTo (a b : String) : Prop := b ∈ successors docs a

/-- The roots lead to the sub-form. -/
def Reached (id : String) : Prop := ∃ r ∈ roots, Relation.ReflTransGen (LeadsTo docs) r id

/-- A sub-form that can be spliced: it is known, and none of its blocks names a template too. -/
def Sound (id : String) : Prop :=
  ∃ f, docs id = some f ∧ ∀ b ∈ f.blocks, b.isConflicting = false

/-- The ids that are so many steps away from the roots. -/
def wave : Nat → List String
  | 0 => roots
  | n + 1 => (wave n).flatMap (successors docs)

/-- The first id in breadth-first order that cannot be spliced. -/
def FirstUnsound (id : String) : Prop :=
  ∃ n before after, wave docs roots n = before ++ id :: after ∧ ¬ Sound docs id
    ∧ (∀ m < n, ∀ x ∈ wave docs roots m, Sound docs x) ∧ ∀ x ∈ before, Sound docs x

end Graph

section Reachability

variable {docs : String → Option SubForm} {roots : List String}

theorem Reached.root {r : String} (hr : r ∈ roots) : Reached docs roots r := ⟨r, hr, .refl⟩

theorem Reached.step {a b : String} (h : Reached docs roots a) (hab : LeadsTo docs a b) :
    Reached docs roots b :=
  let ⟨r, hr, hpath⟩ := h
  ⟨r, hr, hpath.tail hab⟩

/-- What holds of the roots and is handed on holds of everything reached. -/
theorem Reached.closed {P : String → Prop} (hroots : ∀ r ∈ roots, P r)
    (hstep : ∀ a b, P a → LeadsTo docs a b → P b) {id : String} (h : Reached docs roots id) :
    P id := by
  obtain ⟨r, hr, hpath⟩ := h
  induction hpath with
  | refl => exact hroots r hr
  | tail _ hab ih => exact hstep _ _ ih hab

theorem reached_of_mem_wave {n : Nat} {id : String} (h : id ∈ wave docs roots n) :
    Reached docs roots id := by
  induction n generalizing id with
  | zero => exact .root h
  | succ n ih =>
      obtain ⟨a, ha, hab⟩ := List.mem_flatMap.mp h
      exact (ih ha).step hab

theorem FirstUnsound.reached {id : String} (h : FirstUnsound docs roots id) :
    Reached docs roots id := by
  obtain ⟨n, before, after, hwave, -⟩ := h
  refine reached_of_mem_wave (n := n) ?_
  rw [hwave]
  exact List.mem_append_right _ (List.mem_cons_self ..)

theorem FirstUnsound.not_sound {id : String} (h : FirstUnsound docs roots id) :
    ¬ Sound docs id := by
  obtain ⟨_, _, _, -, hid, -⟩ := h
  exact hid

/-- Two lists that differ from the same one at their first bad element differ at the same one. -/
theorem first_unique {α : Type} {P : α → Prop} {before before' after after' : List α} {x x' : α}
    (heq : before ++ x :: after = before' ++ x' :: after') (hx : ¬ P x) (hx' : ¬ P x')
    (hbefore : ∀ y ∈ before, P y) (hbefore' : ∀ y ∈ before', P y) : x = x' := by
  induction before generalizing before' with
  | nil =>
      cases before' with
      | nil => exact (List.cons.inj heq).1
      | cons y' before' =>
          obtain rfl := (List.cons.inj heq).1
          exact absurd (hbefore' _ (List.mem_cons_self ..)) hx
  | cons y before ih =>
      cases before' with
      | nil =>
          obtain rfl := (List.cons.inj heq).1
          exact absurd (hbefore _ (List.mem_cons_self ..)) hx'
      | cons y' before' =>
          exact ih (List.cons.inj heq).2 (fun z hz => hbefore z (List.mem_cons_of_mem _ hz))
            (fun z hz => hbefore' z (List.mem_cons_of_mem _ hz))

/-- **There is one first id that cannot be spliced, at most.** -/
theorem FirstUnsound.unique {a b : String} (ha : FirstUnsound docs roots a)
    (hb : FirstUnsound docs roots b) : a = b := by
  obtain ⟨n, before, after, hwave, hna, hearlier, hbefore⟩ := ha
  obtain ⟨m, before', after', hwave', hnb, hearlier', hbefore'⟩ := hb
  have ha : a ∈ wave docs roots n := by rw [hwave]; simp
  have hb : b ∈ wave docs roots m := by rw [hwave']; simp
  rcases Nat.lt_trichotomy n m with hlt | rfl | hlt
  · exact absurd (hearlier' n hlt a ha) hna
  · exact first_unique (hwave.symm.trans hwave') hna hnb hbefore hbefore'
  · exact absurd (hearlier m hlt b hb) hnb

end Reachability

/-! ## Windows over the waves -/

/-- The rest of a wave, with what the part before it leads to. Nothing before it is faulty. -/
def Window (docs : String → Option SubForm) (roots window : List String) : Prop :=
  ∃ n before after, wave docs roots n = before ++ after
    ∧ window = after ++ before.flatMap (successors docs)
    ∧ (∀ m < n, ∀ x ∈ wave docs roots m, Sound docs x) ∧ ∀ x ∈ before, Sound docs x

section Windows

variable {docs : String → Option SubForm} {roots : List String}

theorem Window.start : Window docs roots roots :=
  ⟨0, [], roots, rfl, (List.append_nil _).symm, fun m hm => absurd hm (Nat.not_lt_zero m),
    fun _ hx => absurd hx List.not_mem_nil⟩

/-- The head of a window is the next id in breadth-first order. -/
theorem Window.head {x : String} {rest : List String} (h : Window docs roots (x :: rest)) :
    ∃ n before after, wave docs roots n = before ++ x :: after
      ∧ rest = after ++ before.flatMap (successors docs)
      ∧ (∀ m < n, ∀ y ∈ wave docs roots m, Sound docs y) ∧ ∀ y ∈ before, Sound docs y := by
  obtain ⟨n, before, after, hwave, hwindow, hearlier, hbefore⟩ := h
  cases after with
  | cons y after =>
      obtain ⟨rfl, hrest⟩ := List.cons.inj hwindow
      exact ⟨n, before, after, hwave, hrest, hearlier, hbefore⟩
  | nil =>
      -- the wave is over, and the window is the next one
      rw [List.append_nil] at hwave
      have hnext : wave docs roots (n + 1) = x :: rest := by
        rw [wave, hwave]; exact hwindow.symm
      refine ⟨n + 1, [], rest, hnext, (List.append_nil _).symm, ?_,
        fun _ hy => absurd hy List.not_mem_nil⟩
      intro m hm y hy
      rcases Nat.lt_succ_iff_lt_or_eq.mp hm with hm | rfl
      · exact hearlier m hm y hy
      · exact hbefore y (hwave ▸ hy)

/-- A window moves on over an id that can be spliced. -/
theorem Window.next {x : String} {rest : List String} (h : Window docs roots (x :: rest))
    (hx : Sound docs x) : Window docs roots (rest ++ successors docs x) := by
  obtain ⟨n, before, after, hwave, rfl, hearlier, hbefore⟩ := h.head
  refine ⟨n, before ++ [x], after, by rw [hwave]; simp, by simp, hearlier, ?_⟩
  intro y hy
  rcases List.mem_append.mp hy with hy | hy
  · exact hbefore y hy
  · obtain rfl := List.mem_singleton.mp hy
    exact hx

theorem Window.skip {ids rest : List String} (h : Window docs roots (ids ++ rest))
    (hids : ∀ x ∈ ids, Sound docs x) :
    Window docs roots (rest ++ ids.flatMap (successors docs)) := by
  induction ids generalizing rest with
  | nil => simpa using h
  | cons x ids ih =>
      have hnext : Window docs roots (ids ++ rest ++ successors docs x) :=
        h.next (hids x (List.mem_cons_self ..))
      rw [List.append_assoc] at hnext
      have hrest := ih hnext (fun y hy => hids y (List.mem_cons_of_mem _ hy))
      rwa [List.append_assoc, ← List.flatMap_cons] at hrest

/-- Where a window begins with a faulty id, that is the first one. -/
theorem Window.firstUnsound {x : String} {rest : List String} (h : Window docs roots (x :: rest))
    (hx : ¬ Sound docs x) : FirstUnsound docs roots x := by
  obtain ⟨n, before, after, hwave, -, hearlier, hbefore⟩ := h.head
  exact ⟨n, before, after, hwave, hx, hearlier, hbefore⟩

end Windows

/-! ## Thinned queues -/

/-- The first list is the second one without some of the ids that were seen before. -/
inductive Thins : List String → List String → List String → Prop where
  | nil {seen : List String} : Thins seen [] []
  | keep {seen queue window : List String} {x : String} :
      Thins (x :: seen) queue window → Thins seen (x :: queue) (x :: window)
  | drop {seen queue window : List String} {x : String} :
      x ∈ seen → Thins seen queue window → Thins seen queue (x :: window)

namespace Thins

variable {seen seen' queue window more : List String} {x : String}

theorem refl (seen queue : List String) : Thins seen queue queue := by
  induction queue generalizing seen with
  | nil => exact .nil
  | cons x queue ih => exact .keep (ih _)

theorem mono (h : Thins seen queue window) (hseen : seen ⊆ seen') : Thins seen' queue window := by
  induction h generalizing seen' with
  | nil => exact .nil
  | keep _ ih => exact .keep (ih (List.cons_subset_cons _ hseen))
  | drop hx _ ih => exact .drop (hseen hx) (ih hseen)

theorem append (h : Thins seen queue window) (more : List String) :
    Thins seen (queue ++ more) (window ++ more) := by
  induction h with
  | nil => exact .refl _ _
  | keep _ ih => exact .keep ih
  | drop hx _ ih => exact .drop hx ih

/-- What was seen, or is in the queue, may be left out at the end. -/
theorem append_seen (h : Thins seen queue window) (hmore : ∀ y ∈ more, y ∈ seen ∨ y ∈ queue) :
    Thins seen queue (window ++ more) := by
  induction h with
  | nil =>
      induction more with
      | nil => exact .nil
      | cons y more ih =>
          have hy : y ∈ _ := (hmore y (List.mem_cons_self ..)).resolve_right List.not_mem_nil
          exact .drop hy (ih fun z hz => hmore z (List.mem_cons_of_mem _ hz))
  | keep _ ih =>
      refine .keep (ih fun y hy => ?_)
      rcases hmore y hy with hseen | hqueue
      · exact .inl (List.mem_cons_of_mem _ hseen)
      · rcases List.mem_cons.mp hqueue with rfl | hqueue
        · exact .inl (List.mem_cons_self ..)
        · exact .inr hqueue
  | drop hx _ ih => exact .drop hx (ih hmore)

/-- Before the head of the queue, the window has only what was seen. -/
theorem head (h : Thins seen (x :: queue) window) :
    ∃ skipped rest, window = skipped ++ x :: rest ∧ (∀ y ∈ skipped, y ∈ seen)
      ∧ Thins (x :: seen) queue rest := by
  induction window with
  | nil => cases h
  | cons y window ih =>
      cases h with
      | keep h => exact ⟨[], window, rfl, fun _ hy => absurd hy List.not_mem_nil, h⟩
      | drop hy h =>
          obtain ⟨skipped, rest, rfl, hskipped, hrest⟩ := ih h
          refine ⟨y :: skipped, rest, rfl, ?_, hrest⟩
          intro z hz
          rcases List.mem_cons.mp hz with rfl | hz
          · exact hy
          · exact hskipped z hz

end Thins

/-! ## The collection -/

/-- What a collection has fetched, what it still asks for, and where that stands in the waves. -/
structure Surveyed (docs : String → Option SubForm) (roots : List String) (c : Collection) :
    Prop where
  distinct : (Ordered.keys c.fetched).Nodup
  /-- What has been fetched is what is known, without conflicts. -/
  fetched : ∀ entry ∈ c.fetched, docs entry.1 = some entry.2 ∧ Sound docs entry.1
  /-- Nothing is fetched or asked for that cannot be reached. -/
  reached : ∀ id, id ∈ Ordered.keys c.fetched ∨ id ∈ c.queue → Reached docs roots id
  /-- The roots have been fetched or are asked for. -/
  named : ∀ r ∈ roots, r ∈ Ordered.keys c.fetched ∨ r ∈ c.queue
  /-- So has been, or is, whatever something fetched leads to. -/
  closed : ∀ a ∈ Ordered.keys c.fetched, ∀ b, LeadsTo docs a b →
    b ∈ Ordered.keys c.fetched ∨ b ∈ c.queue
  /-- The queue is a thinned window. -/
  order : ∃ window, Window docs roots window ∧ Thins (Ordered.keys c.fetched) c.queue window

namespace Surveyed

variable {docs : String → Option SubForm} {roots : List String} {c : Collection}

theorem start : Surveyed docs roots ⟨roots, []⟩ where
  distinct := List.Pairwise.nil
  fetched := fun _ he => absurd he List.not_mem_nil
  reached := fun _ h => .root (h.resolve_left List.not_mem_nil)
  named := fun _ hr => .inr hr
  closed := fun _ ha => absurd ha List.not_mem_nil
  order := ⟨roots, .start, .refl _ _⟩

theorem sound (h : Surveyed docs roots c) {id : String} (hid : id ∈ Ordered.keys c.fetched) :
    Sound docs id := by
  obtain ⟨entry, he, rfl⟩ := List.mem_map.mp hid
  exact (h.fetched entry he).2

/-- The window may begin at the head of the queue. -/
theorem window_head {x : String} {rest : List String}
    (h : Surveyed docs roots ⟨x :: rest, c.fetched⟩) :
    ∃ window, Window docs roots (x :: window) ∧ Thins (x :: Ordered.keys c.fetched) rest window := by
  obtain ⟨window, hwindow, hthins⟩ := h.order
  obtain ⟨skipped, after, rfl, hskipped, hrest⟩ := hthins.head
  have hmove := hwindow.skip fun y hy => h.sound (hskipped y hy)
  refine ⟨_, hmove, hrest.append_seen fun y hy => ?_⟩
  obtain ⟨a, ha, hay⟩ := List.mem_flatMap.mp hy
  rcases h.closed a (hskipped a ha) y hay with hseen | hqueue
  · exact .inl (List.mem_cons_of_mem _ hseen)
  · rcases List.mem_cons.mp hqueue with rfl | hqueue
    · exact .inl (List.mem_cons_self ..)
    · exact .inr hqueue

/-- The head of the queue is left out when it has been fetched. -/
theorem pass {x : String} {rest : List String} (h : Surveyed docs roots ⟨x :: rest, c.fetched⟩)
    (hx : x ∈ Ordered.keys c.fetched) : Surveyed docs roots ⟨rest, c.fetched⟩ := by
  have htail : ∀ y, y ∈ Ordered.keys c.fetched ∨ y ∈ x :: rest →
      y ∈ Ordered.keys c.fetched ∨ y ∈ rest := by
    rintro y (hy | hy)
    · exact .inl hy
    · rcases List.mem_cons.mp hy with rfl | hy
      · exact .inl hx
      · exact .inr hy
  obtain ⟨window, hwindow, hthins⟩ := h.window_head
  have hseen : Thins (Ordered.keys c.fetched) rest window :=
    hthins.mono (List.cons_subset.mpr ⟨hx, List.Subset.refl _⟩)
  exact {
    distinct := h.distinct
    fetched := h.fetched
    reached := fun y hy => h.reached y (hy.imp_right (List.mem_cons_of_mem _))
    named := fun r hr => htail r (h.named r hr)
    closed := fun a ha b hab => htail b (h.closed a ha b hab)
    order := ⟨_, hwindow.next (h.sound hx),
      hseen.append_seen fun y hy => htail y (h.closed x hx y hy)⟩ }

/-- What has been fetched is passed over. -/
theorem pending (h : Surveyed docs roots c) : Surveyed docs roots ⟨c.pending, c.fetched⟩ := by
  obtain ⟨queue, fetched⟩ := c
  unfold Collection.pending
  dsimp only
  induction queue with
  | nil => exact h
  | cons x rest ih =>
      by_cases hx : Ordered.has fetched x = true
      · rw [List.dropWhile_cons_of_pos hx]
        exact ih (pass (c := ⟨[], fetched⟩) h (has_iff.mp hx))
      · rw [List.dropWhile_cons_of_neg hx]
        exact h

/-- What is found for the head of the queue is fetched. -/
theorem add (h : Surveyed docs roots c) {id : String} {rest : List String} {f : SubForm}
    (hpend : c.pending = id :: rest) (hget : docs id = some f)
    (hfree : ∀ b ∈ f.blocks, b.isConflicting = false) : Surveyed docs roots (c.add id rest f) := by
  have hp := h.pending
  rw [hpend] at hp
  have hkeys : Ordered.keys (c.add id rest f).fetched = Ordered.keys c.fetched ++ [id] := by
    rw [add_fetched hpend, Ordered.keys, List.map_append]; rfl
  have hqueue : (c.add id rest f).queue = rest ++ successors docs id := by
    rw [successors, hget]; rfl
  have hsound : Sound docs id := ⟨f, hget, hfree⟩
  -- what was fetched or asked for still is
  have hkept : ∀ y, y ∈ Ordered.keys c.fetched ∨ y ∈ id :: rest →
      y ∈ Ordered.keys c.fetched ++ [id] ∨ y ∈ rest ++ successors docs id := by
    rintro y (hy | hy)
    · exact .inl (List.mem_append_left _ hy)
    · rcases List.mem_cons.mp hy with rfl | hy
      · exact .inl (List.mem_append_right _ (List.mem_singleton.mpr rfl))
      · exact .inr (List.mem_append_left _ hy)
  have hid : Reached docs roots id := hp.reached id (.inr (List.mem_cons_self ..))
  obtain ⟨window, hwindow, hthins⟩ := hp.window_head
  constructor
  · exact add_nodup hpend h.distinct f
  · intro entry he
    rw [add_fetched hpend] at he
    rcases List.mem_append.mp he with he | he
    · exact h.fetched entry he
    · obtain rfl := List.mem_singleton.mp he
      exact ⟨hget, hsound⟩
  · rw [hkeys, hqueue]
    rintro y (hy | hy)
    · rcases List.mem_append.mp hy with hy | hy
      · exact h.reached y (.inl hy)
      · obtain rfl := List.mem_singleton.mp hy
        exact hid
    · rcases List.mem_append.mp hy with hy | hy
      · exact hp.reached y (.inr (List.mem_cons_of_mem _ hy))
      · exact hid.step hy
  · rw [hkeys, hqueue]
    exact fun r hr => hkept r (hp.named r hr)
  · rw [hkeys, hqueue]
    intro a ha b hab
    rcases List.mem_append.mp ha with ha | ha
    · exact hkept b (hp.closed a ha b hab)
    · obtain rfl := List.mem_singleton.mp ha
      exact .inr (List.mem_append_right _ hab)
  · rw [hkeys, hqueue]
    refine ⟨_, hwindow.next hsound, (hthins.append _).mono ?_⟩
    exact List.cons_subset.mpr
      ⟨List.mem_append_right _ (List.mem_singleton.mpr rfl), List.subset_append_left ..⟩

/-- Once nothing is asked for any more, what has been fetched is what can be reached. -/
theorem complete (h : Surveyed docs roots c) (hpend : c.pending = []) {id : String} :
    id ∈ Ordered.keys c.fetched ↔ Reached docs roots id := by
  have hp := h.pending
  rw [hpend] at hp
  refine ⟨fun hid => hp.reached id (.inl hid), fun hid => ?_⟩
  refine hid.closed (fun r hr => (hp.named r hr).resolve_right List.not_mem_nil) ?_
  exact fun a b ha hab => (hp.closed a ha b hab).resolve_right List.not_mem_nil

end Surveyed

/-! ## The outcome -/

/-- How a collection from a catalog ends. -/
inductive Collected (catalog : Catalog) (roots : List String) :
    Except ReferenceError Catalog → Prop where
  /-- Everything that can be reached has been fetched, and is sound. -/
  | all {given : Catalog} :
      (∀ id, id ∈ Ordered.keys given ↔ Reached (Ordered.get? catalog) roots id) →
      (∀ entry ∈ given, Ordered.get? catalog entry.1 = some entry.2
        ∧ Sound (Ordered.get? catalog) entry.1) →
      Collected catalog roots (.ok given)
  /-- The first fault is an id that is not known. -/
  | missing {id : String} :
      FirstUnsound (Ordered.get? catalog) roots id → Ordered.get? catalog id = none →
      Collected catalog roots (.error (.missingSubForm id (sortIds (Ordered.keys catalog))))
  /-- The first fault is a block that names both a sub-form and a template. -/
  | conflict {id : String} {f : SubForm} {b : Block} :
      FirstUnsound (Ordered.get? catalog) roots id → Ordered.get? catalog id = some f →
      f.blocks.find? Block.isConflicting = some b →
      Collected catalog roots (.error (.conflicting b.id))

/-- Fetching stays within the catalog. -/
theorem Surveyed.length_le {catalog : Catalog} {roots : List String} {c : Collection}
    (h : Surveyed (Ordered.get? catalog) roots c) : c.fetched.length ≤ catalog.length := by
  have hsub : Ordered.keys c.fetched ⊆ Ordered.keys catalog := by
    intro id hid
    obtain ⟨entry, he, rfl⟩ := List.mem_map.mp hid
    exact List.mem_map_of_mem (mem_of_get? (h.fetched entry he).1)
  have hlen := h.distinct.length_le_of_subset hsub
  simpa [Ordered.keys] using hlen

theorem run_collected {σ : Type} {catalog : Catalog} {roots : List String} {fuel : Nat}
    {c : Collection} (h : Surveyed (Ordered.get? catalog) roots c)
    (hfuel : catalog.length + 1 ≤ fuel + c.fetched.length) (s : σ) :
    ∃ outcome, Collection.run (.ofCatalog catalog) fuel c s = (outcome, s)
      ∧ Collected catalog roots outcome := by
  induction fuel generalizing c with
  | zero =>
      have := h.length_le
      omega
  | succ fuel ih =>
      rw [Collection.run]
      cases hpend : c.pending with
      | nil => exact ⟨_, rfl, .all (fun id => h.complete hpend) h.fetched⟩
      | cons id rest =>
          have hp := h.pending
          rw [hpend] at hp
          obtain ⟨window, hwindow, -⟩ := hp.window_head
          dsimp only [Provider.ofCatalog]
          cases hget : Ordered.get? catalog id with
          | none =>
              have hunsound : ¬ Sound (Ordered.get? catalog) id := by
                rintro ⟨f, hf, -⟩
                rw [hget] at hf
                cases hf
              exact ⟨_, rfl, .missing (hwindow.firstUnsound hunsound) hget⟩
          | some f =>
              cases hfind : f.blocks.find? Block.isConflicting with
              | some b =>
                  have hunsound : ¬ Sound (Ordered.get? catalog) id := by
                    rintro ⟨f', hf', hfree⟩
                    rw [hget] at hf'
                    cases hf'
                    have := hfree b (List.mem_of_find?_eq_some hfind)
                    rw [List.find?_some hfind] at this
                    cases this
                  have hcheck : checkConflicts f.blocks = .error (.conflicting b.id) := by
                    rw [checkConflicts, hfind]
                  simp only [hcheck]
                  exact ⟨_, rfl, .conflict (hwindow.firstUnsound hunsound) hget hfind⟩
              | none =>
                  have hfree : ∀ b ∈ f.blocks, b.isConflicting = false := by
                    simpa using hfind
                  simp only [checkConflicts_eq_ok.mpr hfree]
                  refine ih (h.add hpend hget hfree) ?_
                  rw [add_fetched hpend, List.length_append, List.length_singleton]
                  omega

/-- **A collection fetches all that can be reached, or reports the first fault in breadth-first
order.** -/
theorem collectSubForms_collected {σ : Type} (catalog : Catalog) (blocks : List Block) (s : σ) :
    ∃ outcome, collectSubForms (.ofCatalog catalog) blocks s = (outcome, s)
      ∧ Collected catalog (expansionIds blocks) outcome :=
  run_collected .start (by simp [Provider.ofCatalog]) s

end Formwork.Proofs
