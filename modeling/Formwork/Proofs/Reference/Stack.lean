import Formwork.Proofs.Reference.Outcome
import Formwork.Proofs.Reference.Queue
import Mathlib.Algebra.Group.Nat.Defs

/-!
# The loop that splices sub-forms

Splicing is computed with the limit as its measure: no sub-form is entered at the limit, so
there is less and less room. A limit may be as great as one likes, and the loop needs none
(`splicing`). What bounds it is that a sub-form in progress is not entered again: those in
progress are distinct ids of the catalog, so there is only room for as many as it has.

Entering a sub-form takes one of that room away and puts no more blocks on the stack than
the catalog has. Weighting every block on the stack by a power of that number, with what is
left of the room where it is entered, makes every turn cost something (`work`). So how often
the loop goes round is bounded by the blocks and the catalog alone.
-/

namespace Formwork.Proofs

open Formwork

/-- What splicing works with: the sub-forms in progress from the innermost out, the tasks, and what
has been put out. -/
structure Splicing where
  path : List String
  tasks : List SpliceTask
  out : List Block

/-- Splicing begins with the blocks and nothing in progress. -/
def Splicing.start (bs : List Block) : Splicing := ⟨[], Splice.enterAll bs "", []⟩

/-- A turn of the loop. -/
inductive Splices (catalog : Catalog) (limit : Int) : Splicing → Splicing → Prop where
  | leave {path : List String} {rest : List SpliceTask} {out : List Block} :
      Splices catalog limit ⟨path, .leave :: rest, out⟩ ⟨path.tail, rest, out⟩
  | keep {path : List String} {b : Block} {suffix : String} {rest : List SpliceTask}
      {out : List Block} :
      b.expansion? = none →
      Splices catalog limit ⟨path, .enter b suffix :: rest, out⟩
        ⟨path, rest, out ++ [b.withSuffix suffix]⟩
  | enter {path : List String} {b : Block} {suffix id : String} {f : SubForm}
      {rest : List SpliceTask} {out : List Block} :
      b.expansion? = some id → id ∉ path → (path.length : Int) < limit →
      Ordered.get? catalog id = some f →
      Splices catalog limit ⟨path, .enter b suffix :: rest, out⟩
        ⟨id :: path, Splice.enterAll f.blocks (b.instanceSuffix ++ suffix) ++ .leave :: rest, out⟩

/-- Where the loop halts. -/
inductive SplicesNoMore (catalog : Catalog) (limit : Int) :
    Splicing → Except ReferenceError (List Block) → Prop where
  | done {path : List String} {out : List Block} :
      SplicesNoMore catalog limit ⟨path, [], out⟩ (.ok out)
  | cyclic {path : List String} {b : Block} {suffix id : String} {rest : List SpliceTask}
      {out : List Block} :
      b.expansion? = some id → id ∈ path →
      SplicesNoMore catalog limit ⟨path, .enter b suffix :: rest, out⟩
        (.error (.cyclic id (path.reverse ++ [id])))
  | deep {path : List String} {b : Block} {suffix id : String} {rest : List SpliceTask}
      {out : List Block} :
      b.expansion? = some id → id ∉ path → limit ≤ path.length →
      SplicesNoMore catalog limit ⟨path, .enter b suffix :: rest, out⟩
        (.error (.depthExceeded id (path.length + 1) limit))
  | absent {path : List String} {b : Block} {suffix id : String} {rest : List SpliceTask}
      {out : List Block} :
      b.expansion? = some id → id ∉ path → (path.length : Int) < limit →
      Ordered.get? catalog id = none →
      SplicesNoMore catalog limit ⟨path, .enter b suffix :: rest, out⟩
        (.error (.missingSubForm id []))

/-- The loop that splices sub-forms. -/
def splicing (catalog : Catalog) (limit : Int) :
    Loop Splicing (Except ReferenceError (List Block)) where
  turn := Splices catalog limit
  halts := SplicesNoMore catalog limit
  turn_unique hb hc := by
    cases hb <;> cases hc <;> simp_all
  halts_unique hx hy := by
    cases hx with
    | done => cases hy; rfl
    | cyclic hid hmem => cases hy <;> simp_all
    | deep hid hnew hroom => cases hy <;> first | omega | simp_all
    | absent hid hnew hroom hget => cases hy <;> first | omega | simp_all
  exclusive hb hx := by
    cases hb with
    | leave => cases hx
    | keep hnone => cases hx <;> simp_all
    | enter hid hnew hroom hget => cases hx <;> first | omega | simp_all

/-! ## How often it goes round -/

/-- How many sub-forms of the catalog are not in progress. -/
def roomLeft (catalog : Catalog) (path : List String) : Nat :=
  ((Ordered.keys catalog).toFinset \ path.toFinset).card

/-- What is left to do at most. -/
def work (catalog : Catalog) (a : Splicing) : Nat :=
  Splice.cost (Splice.breadth catalog) (roomLeft catalog a.path) a.tasks

section Bound

variable {catalog : Catalog} {limit : Int}

theorem roomLeft_tail_le (path : List String) :
    roomLeft catalog path.tail ≤ roomLeft catalog path + 1 := by
  cases path with
  | nil => exact Nat.le_succ _
  | cons id path =>
      rw [List.tail_cons, roomLeft, roomLeft, List.toFinset_cons]
      have hsplit : (Ordered.keys catalog).toFinset \ path.toFinset ⊆
          insert id ((Ordered.keys catalog).toFinset \ insert id path.toFinset) := by
        intro x hx
        simp only [Finset.mem_sdiff, Finset.mem_insert] at hx ⊢
        tauto
      exact (Finset.card_le_card hsplit).trans (Finset.card_insert_le _ _)

theorem roomLeft_cons {path : List String} {id : String} (hid : id ∈ Ordered.keys catalog)
    (hnew : id ∉ path) : roomLeft catalog path = roomLeft catalog (id :: path) + 1 := by
  have hmem : id ∈ (Ordered.keys catalog).toFinset \ path.toFinset := by
    simp [hid, hnew]
  rw [roomLeft, roomLeft, List.toFinset_cons, Finset.sdiff_insert,
    Finset.card_erase_add_one hmem]

theorem roomLeft_le (path : List String) : roomLeft catalog path ≤ catalog.length := by
  have hkeys := List.toFinset_card_le (Ordered.keys catalog)
  rw [Ordered.keys, List.length_map] at hkeys
  exact (Finset.card_le_card Finset.sdiff_subset).trans hkeys

/-- Some of all blocks, and a mark, weigh less than a block further out. -/
theorem blocks_cost_lt {n breadth room : Nat} (h : n ≤ breadth) :
    n * Nat.pow (breadth + 2) room + 1 < Nat.pow (breadth + 2) (room + 1) := by
  have hpos : 0 < (breadth + 2) ^ room := Nat.pow_pos (Nat.succ_pos _)
  calc n * (breadth + 2) ^ room + 1
      ≤ breadth * (breadth + 2) ^ room + (breadth + 2) ^ room :=
        Nat.add_le_add (Nat.mul_le_mul_right _ h) hpos
    _ < breadth * (breadth + 2) ^ room + 2 * (breadth + 2) ^ room := by omega
    _ = (breadth + 2) ^ (room + 1) := by rw [Nat.pow_succ', Nat.add_mul]

/-- **Every turn leaves less to do.** -/
theorem Splices.work_lt {a b : Splicing} (h : Splices catalog limit a b) :
    work catalog b < work catalog a := by
  cases h with
  | @leave path rest out =>
      have hrest := Splice.cost_mono (Splice.breadth catalog) rest
        (roomLeft_tail_le path : roomLeft catalog path.tail ≤ _)
      simp only [work, Splice.cost]
      omega
  | @keep path b suffix rest out hnone =>
      have hpos : 0 < Nat.pow (Splice.breadth catalog + 2) (roomLeft catalog path) :=
        Nat.pow_pos (Nat.succ_pos _)
      simp only [work, Splice.cost]
      exact Nat.lt_add_of_pos_left hpos
  | @enter path b suffix id f rest out hid hnew hroom hget =>
      have hkey : id ∈ Ordered.keys catalog := List.mem_map_of_mem (mem_of_get? hget)
      have hleft := roomLeft_cons hkey hnew
      have hless : f.blocks.length * Nat.pow (Splice.breadth catalog + 2) _ + 1 <
          Nat.pow (Splice.breadth catalog + 2) (roomLeft catalog (id :: path) + 1) :=
        blocks_cost_lt (Splice.length_le_breadth hget)
      simp only [work, Splice.cost, Splice.cost_enterAll, hleft]
      omega

theorem work_start_le (bs : List Block) : work catalog (.start bs) ≤
    bs.length * (Splice.breadth catalog + 2) ^ catalog.length := by
  have hcost := Splice.cost_enterAll (Splice.breadth catalog) (roomLeft catalog []) bs "" []
  rw [List.append_nil] at hcost
  have hpow : (Splice.breadth catalog + 2) ^ roomLeft catalog [] ≤
      (Splice.breadth catalog + 2) ^ catalog.length :=
    Nat.pow_le_pow_right (Nat.succ_pos _) (roomLeft_le [])
  show Splice.cost _ (roomLeft catalog []) (Splice.enterAll bs "") ≤ _
  rw [hcost]
  exact Nat.mul_le_mul_left _ hpow

/-! ## What is in progress -/

/-- What is in progress are distinct ids of the catalog. -/
structure InProgress (catalog : Catalog) (a : Splicing) : Prop where
  distinct : a.path.Nodup
  known : a.path ⊆ Ordered.keys catalog

theorem InProgress.start (bs : List Block) : InProgress catalog (.start bs) :=
  ⟨List.nodup_nil, List.nil_subset _⟩

/-- **A turn keeps what is in progress distinct.** -/
theorem Splices.inProgress {a b : Splicing} (h : Splices catalog limit a b)
    (ha : InProgress catalog a) : InProgress catalog b := by
  cases h with
  | leave => exact ⟨ha.distinct.tail, List.Subset.trans (List.tail_subset _) ha.known⟩
  | keep => exact ⟨ha.distinct, ha.known⟩
  | enter hid hnew hroom hget =>
      have hkey := List.mem_map_of_mem (f := Prod.fst) (mem_of_get? hget)
      exact ⟨List.nodup_cons.mpr ⟨hnew, ha.distinct⟩, List.cons_subset.mpr ⟨hkey, ha.known⟩⟩

/-! ## What it comes to -/

/-- **The loop comes to what splicing is computed to be.** -/
theorem splicing_comesTo (path : List String) (tasks : List SpliceTask) (out : List Block) :
    (splicing catalog limit).ComesTo ⟨path, tasks, out⟩
      ((Splice.run catalog limit path tasks).map (out ++ ·)) := by
  fun_induction Splice.run catalog limit path tasks generalizing out with
  | case1 path =>
      rw [show (Except.ok [] : Except ReferenceError (List Block)).map (out ++ ·) = .ok out by
        rw [Except.map, List.append_nil]]
      exact .halt .done
  | case2 path rest ih => exact .turn .leave (ih out)
  | case3 path b suffix rest hb ih =>
      have hrest := ih (out ++ [b.withSuffix suffix])
      refine .turn (.keep hb) ?_
      cases hrun : Splice.run catalog limit path rest with
      | error e => rwa [hrun] at hrest
      | ok more =>
          rw [hrun, Except.map, List.append_assoc] at hrest
          exact hrest
  | case4 path b suffix rest id hid hpath =>
      exact .halt (.cyclic hid (List.contains_iff_mem.mp hpath))
  | case5 path b suffix rest id hid hpath hroom =>
      exact .halt (.deep hid (by simpa using hpath) hroom)
  | case6 path b suffix rest id hid hpath hroom hget =>
      exact .halt (.absent hid (by simpa using hpath) (Int.not_le.mp hroom) hget)
  | case7 path b suffix rest id hid hpath hroom f hget ih =>
      exact .turn (.enter hid (by simpa using hpath) (Int.not_le.mp hroom) hget) (ih out)

theorem start_comesTo (bs : List Block) : (splicing catalog limit).ComesTo (.start bs)
    (Splice.run catalog limit [] (Splice.enterAll bs "")) := by
  have h : (splicing catalog limit).ComesTo (.start bs) _ :=
    splicing_comesTo [] (Splice.enterAll bs "") []
  have hnone : ((Splice.run catalog limit [] (Splice.enterAll bs "")).map ([] ++ ·)) =
      Splice.run catalog limit [] (Splice.enterAll bs "") := by
    cases Splice.run catalog limit [] (Splice.enterAll bs "") <;> rfl
  rwa [hnone] at h

/-- Where all that can be reached was collected, splicing misses nothing. -/
theorem run_not_missing {bs : List Block}
    (hall : ∀ id, id ∈ Ordered.keys catalog ↔
      Reached (Ordered.get? catalog) (expansionIds bs) id) (id : String) (ids : List String) :
    Splice.run catalog limit [] (Splice.enterAll bs "") ≠ .error (.missingSubForm id ids) := by
  intro hrun
  cases stuck_of_run hrun with
  | absent htrail hnone =>
      have hreached := htrail.reached (List.mem_append_right _ (List.mem_cons_self ..))
      have hhas : Ordered.has catalog id = false := by
        rw [Ordered.has, hnone]
        rfl
      exact has_eq_false_iff.mp hhas ((hall id).mpr hreached)

end Bound

/-! ## Both loops -/

/-- What a loop of asking that returns has asked for. -/
structure AskedFor {σ : Type} (p : Provider σ) (bs : List Block) (s : σ) (catalog : Catalog) (t : σ) :
    Prop where
  /-- It has looked up what it returns, in this order. -/
  log : (asking (logged p)).ComesTo (⟨expansionIds bs, []⟩, (s, []))
    (.ok catalog, (t, Ordered.keys catalog))
  /-- Each id was looked up once. -/
  once : (Ordered.keys catalog).Nodup
  /-- It has looked up what can be reached through what it was given. -/
  reached : ∀ id, id ∈ Ordered.keys catalog ↔
    Reached (Ordered.get? catalog) (expansionIds bs) id
  /-- From a provider that always answers alike, that is what can be reached through all it knows. -/
  served : ∀ docs, Serves p docs → ∀ id, id ∈ Ordered.keys catalog ↔
    Reached docs (expansionIds bs) id

/-- How the loop of splicing goes under a limit. -/
structure SplicedBy (catalog : Catalog) (limit : Int) (bs : List Block) : Prop where
  /-- What is in progress is distinct and was collected, wherever the loop gets. -/
  distinct : ∀ state, (splicing catalog limit).Passes (.start bs) state → InProgress catalog state
  /-- It goes round so often at most, whatever the limit is. -/
  bounded : ∀ states, (Splicing.start bs :: states).IsChain (splicing catalog limit).turn →
    states.length ≤ bs.length * (Splice.breadth catalog + 2) ^ catalog.length
  /-- It comes to what splicing is computed to be, and to nothing else. -/
  ends : ∀ outcome, (splicing catalog limit).ComesTo (.start bs) outcome ↔
    outcome = Splice.run catalog limit [] (Splice.enterAll bs "")
  /-- No sub-form is missing. -/
  found : ∀ id ids, ¬ (splicing catalog limit).ComesTo (.start bs) (.error (.missingSubForm id ids))

theorem askedFor {σ : Type} {p : Provider σ} {bs : List Block} {s t : σ} {catalog : Catalog}
    (h : (asking p).ComesTo (⟨expansionIds bs, []⟩, s) (.ok catalog, t)) :
    AskedFor p bs s catalog t := by
  obtain ⟨_, rfl, hgives, hdistinct, hlog⟩ := asked_of_comesTo h
  have honce : (Ordered.keys catalog).Nodup := hdistinct List.nodup_nil
  exact {
    log := hlog []
    once := honce
    reached := fun id => reached_of_comesTo h (fun entry he => get?_of_mem honce he) .start id
    served := fun docs hdocs id => reached_of_comesTo h (hgives.serves hdocs) .start id }

theorem splicedBy {catalog : Catalog} (limit : Int) {bs : List Block}
    (hall : ∀ id, id ∈ Ordered.keys catalog ↔
      Reached (Ordered.get? catalog) (expansionIds bs) id) : SplicedBy catalog limit bs where
  distinct _ h := h.invariant Splices.inProgress (.start bs)
  bounded _ h := (Loop.length_le Splices.work_lt h).trans (work_start_le bs)
  ends _ := Loop.comesTo_iff (start_comesTo bs)
  found id ids h := run_not_missing hall id ids (h.unique (start_comesTo bs)).symm

/-- Splicing asks for nothing: the provider is left as the collection has left it. -/
theorem resolveSubForms_state {σ : Type} (p : Provider σ) (limit : Int) (bs : List Block) (s : σ) :
    (resolveSubForms p limit bs s).2 = (collectSubForms p bs s).2 := by
  unfold resolveSubForms
  split <;> rename_i hcol <;> rw [hcol]

/--
**Both loops end, and nothing is asked for that is not needed.**

For a provider that knows finitely many ids, whatever they lead to: the loop that asks for sub-forms
goes on forever from no state, and comes to one outcome, which is that of the collection if the
provider has said how many it can supply. When it returns it has looked up the ids that can be
reached without going through popins, each of them once, and nothing more is looked up when the
blocks are spliced. On what was collected the loop that splices, under whatever limit, has distinct
ids in progress wherever it gets, goes round no more often than the blocks and the catalog allow, and
comes to one outcome, which is that of splicing; no sub-form is missing then.
-/
theorem reference_loops_end {σ : Type} {p : Provider σ} {known : Finset String}
    (hknown : KnowsOnly p known) (bs : List Block) (s : σ) :
    (WellFounded fun b a => (asking p).turn a b)
      ∧ (∃ outcome, (∀ x, (asking p).ComesTo (⟨expansionIds bs, []⟩, s) x ↔ x = outcome)
        ∧ (known.card ≤ p.supply s → collectSubForms p bs s = outcome))
      ∧ ∀ catalog t, (asking p).ComesTo (⟨expansionIds bs, []⟩, s) (.ok catalog, t) →
          AskedFor p bs s catalog t
            ∧ (known.card ≤ p.supply s → ∀ limit,
              (resolveSubForms (logged p) limit bs (s, [])).2 = (t, Ordered.keys catalog))
            ∧ ∀ limit, SplicedBy catalog limit bs := by
  have hstart : unfetched known ⟨expansionIds bs, []⟩ = known.card := by
    simp [unfetched, Ordered.keys]
  have hrun : ∀ {fuel}, known.card < fuel → (asking p).ComesTo (⟨expansionIds bs, []⟩, s)
      (Collection.run p fuel ⟨expansionIds bs, []⟩ s) :=
    fun hfuel => run_comesTo hknown (by omega) s
  refine ⟨asking_wellFounded hknown, ⟨_, fun x => Loop.comesTo_iff (hrun (Nat.lt_succ_self _)), ?_⟩, ?_⟩
  · intro hsupply
    exact (hrun (Nat.lt_succ_of_le hsupply)).unique (hrun (Nat.lt_succ_self _))
  · intro catalog t h
    have hasked := askedFor h
    refine ⟨hasked, ?_, fun limit => splicedBy limit hasked.reached⟩
    intro hsupply limit
    have hlogged : KnowsOnly (logged p) known := by
      rintro id ⟨s, log⟩ f ⟨t, log'⟩ hlook
      exact hknown id s f _ (Prod.ext (Prod.mk.inj hlook).1 rfl)
    have hcol : (asking (logged p)).ComesTo (⟨expansionIds bs, []⟩, (s, []))
        (collectSubForms (logged p) bs (s, [])) :=
      run_comesTo hlogged (hstart.trans_lt (Nat.lt_succ_of_le hsupply)) (s, [])
    rw [resolveSubForms_state, hcol.unique hasked.log]

/-- The ring is asked for once, and spliced in a few turns even under a great limit. -/
theorem reference_loops_end_ring :
    KnowsOnly (.ofCatalog ringCatalog : Provider Unit) {"a", "b"}
      ∧ (asking (.ofCatalog ringCatalog : Provider Unit)).ComesTo (⟨["a"], []⟩, ())
          (.ok ringCatalog, ())
      ∧ AskedFor (.ofCatalog ringCatalog : Provider Unit) [useBlock "x" "a" ""] () ringCatalog ()
      ∧ SplicedBy ringCatalog 1000000 [useBlock "x" "a" ""] := by
  have hknown : KnowsOnly (.ofCatalog ringCatalog : Provider Unit) {"a", "b"} := by
    intro id s f t hlook
    have hget : Ordered.get? ringCatalog id = some f := Except.ok.inj (Prod.mk.inj hlook).1
    have hkey : id ∈ ["a", "b"] := List.mem_map_of_mem (f := Prod.fst) (mem_of_get? hget)
    simpa using hkey
  have hcol : collectSubForms (.ofCatalog ringCatalog : Provider Unit) [useBlock "x" "a" ""] () =
      (.ok ringCatalog, ()) := by rfl
  obtain ⟨-, ⟨outcome, hends, hsupplied⟩, hreturns⟩ :=
    reference_loops_end hknown [useBlock "x" "a" ""] ()
  have hcomes : (asking (.ofCatalog ringCatalog : Provider Unit)).ComesTo (⟨["a"], []⟩, ())
      (.ok ringCatalog, ()) := by
    refine (hends _).mpr ?_
    rw [← hsupplied (by decide), hcol]
  obtain ⟨hasked, -, hspliced⟩ := hreturns _ _ hcomes
  exact ⟨hknown, hcomes, hasked, hspliced 1000000⟩

end Formwork.Proofs
