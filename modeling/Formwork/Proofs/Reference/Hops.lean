import Formwork.Proofs.Reference.Outcome
import Formwork.Proofs.Reference.Templates

/-!
# How far chains of templates go

Each reference on a chain is a hop. A chain that arrives is at a block without a reference
after some number of hops, and has come to no block twice (`Arrives`). A chain that is
refused went through blocks like that as well, up to one whose reference is not followed:
it names a block on the chain, one hop too many, or a block that cannot serve (`Refused`).

The path of a chain has the block that it started at on it, so it is one longer than the
chain has hops. That is why a chain is refused when its path is longer than the limit,
while sub-forms are refused when as many as the limit are in progress: both limits count
hops. Where blocks name each other as templates, sub-forms can be nested in the same way
(`nestOf`), and then the same limits refuse the chain and the nest, with the same report.
-/

namespace Formwork.Proofs

open Formwork

/-- References lead from a block through these blocks, none of them repeatable, to the last one. -/
inductive Through (all : List Block) : Block → List Block → Block → Prop where
  | here {b : Block} : Through all b [] b
  | on {b t last : Block} {ts : List Block} :
      Names all b t → t.repeatable = false → Through all t ts last → Through all b (t :: ts) last

/-- Following the references from a block comes to an end, and to no block twice. -/
structure Arrives (all : List Block) (b : Block) (ts : List Block) : Prop where
  chained : Chained all b ts
  distinct : ((b :: ts).map Block.id).Nodup

/-- What a block takes over is at the end of its chain after at most so many hops. -/
def EndsWithin (all : List Block) (limit : Nat) (b : Block) : Prop :=
  b.popin = false → ∀ ref, b.template? = some ref → ∃ ts, Arrives all b ts ∧ ts.length ≤ limit

/-- A chain that has come to its last block, after so many hops and to no block twice, and goes on
with a reference. -/
structure GoesOn (all : List Block) (b : Block) (ts : List Block) (last : Block) (ref : String) :
    Prop where
  through : Through all b ts last
  distinct : ((b :: ts).map Block.id).Nodup
  next : last.template? = some ref

/-- Why the chain of a block is refused. -/
inductive Refused (all : List Block) (limit : Nat) (b : Block) : ReferenceError → Prop where
  /-- The next hop would lead back to a block on the chain. -/
  | cyclic {ts : List Block} {last : Block} {ref : String} :
      GoesOn all b ts last ref → ts.length ≤ limit → ref ∈ (b :: ts).map Block.id →
      Refused all limit b (.cyclic ref ((b :: ts).map Block.id ++ [ref]))
  /-- All hops have been taken, and there is one more. -/
  | deep {ts : List Block} {last : Block} {ref : String} :
      GoesOn all b ts last ref → ts.length = limit → ref ∉ (b :: ts).map Block.id →
      Refused all limit b (.depthExceeded ref (limit + 1) limit)
  /-- The next hop would lead to no block. -/
  | unknown {ts : List Block} {last : Block} {ref : String} :
      GoesOn all b ts last ref → ts.length < limit → ref ∉ (b :: ts).map Block.id →
      ref ∉ all.map Block.id → Refused all limit b (.missingTemplate ref last.id .unknown)
  /-- The next hop would lead to a repeatable block. -/
  | repeatable {ts : List Block} {last t : Block} :
      GoesOn all b ts last t.id → ts.length < limit → t.id ∉ (b :: ts).map Block.id → t ∈ all →
      t.repeatable = true → Refused all limit b (.missingTemplate t.id last.id .repeatable)

/-! ## Hops from a block -/

section Hops

variable {all : List Block} {b t last : Block} {ts : List Block} {limit : Nat}

theorem Through.snoc (h : Through all b ts last) (hname : Names all last t)
    (hrep : t.repeatable = false) : Through all b (ts ++ [t]) t := by
  induction h with
  | here => exact .on hname hrep .here
  | on hfirst hrep' _ ih => exact .on hfirst hrep' (ih hname)

/-- Behind the block that it starts at, a chain fits that comes to no block twice, in no more hops
than the limit. -/
theorem fitsBehind_self_iff :
    FitsBehind limit [b.id] ts ↔ ((b :: ts).map Block.id).Nodup ∧ ts.length ≤ limit := by
  have hfresh : b.id ∉ ts.map Block.id ↔ ∀ t ∈ ts, t.id ∉ [b.id] := by
    simp
  rw [List.map_cons, List.nodup_cons]
  constructor
  · rintro ⟨hnew, hdistinct, hshort⟩
    refine ⟨⟨hfresh.mpr hnew, hdistinct⟩, ?_⟩
    by_cases hts : ts = []
    · simp [hts]
    · have hlength := hshort hts
      rw [List.length_singleton] at hlength
      omega
  · rintro ⟨⟨hnew, hdistinct⟩, hlength⟩
    refine ⟨hfresh.mp hnew, hdistinct, ?_⟩
    intro _
    rw [List.length_singleton]
    omega

/-- **What a block takes over is found exactly if its chain arrives within the limit.** -/
theorem templates_ok_iff (hnd : (all.map Block.id).Nodup) :
    (∃ ts, Repeatable.templates all limit b = .ok ts) ↔ EndsWithin all limit b := by
  simp only [templates_eq_ok_iff hnd, EndsWithin, fitsBehind_self_iff]
  cases b.popin with
  | true => simp
  | false =>
      simp only [Bool.false_eq_true, if_false, forall_const]
      cases href : b.template? with
      | none =>
          -- a block without a reference has arrived
          simpa using ⟨[], Chained.stop href, by simp⟩
      | some ref =>
          simp only [Option.some.injEq, forall_eq']
          constructor
          · rintro ⟨ts, hchained, hdistinct, hlength⟩
            exact ⟨ts, ⟨hchained, hdistinct⟩, hlength⟩
          · rintro ⟨ts, harrives, hlength⟩
            exact ⟨ts, harrives.chained, harrives.distinct, hlength⟩

/-- A chain that has come through some blocks goes on from the last one, with all of them on its
path. -/
theorem Through.chain_eq (hnd : (all.map Block.id).Nodup) (h : Through all b ts last)
    {path : List String} (hfits : FitsBehind limit path ts) :
    Repeatable.chain all limit path b =
      (Repeatable.chain all limit ((ts.map Block.id).reverse ++ path) last).map (ts ++ ·) := by
  induction h generalizing path with
  | @here b =>
      show _ = Except.map id (Repeatable.chain all limit path b)
      cases Repeatable.chain all limit path b <;> rfl
  | @on b t last ts hname hrep _ ih =>
      obtain ⟨hnew, hroom, hfits⟩ := fitsBehind_cons_iff.mp hfits
      rw [chain_step hname.2 (by simpa using hnew) hroom (target_of_mem hnd hname.1 hrep _),
        ih hfits, List.map_cons, List.reverse_cons, List.append_assoc, List.singleton_append]
      cases Repeatable.chain all limit ((ts.map Block.id).reverse ++ t.id :: path) last <;> rfl

end Hops

/-! ## Chains that are refused -/

section Refusals

variable {all : List Block} {b current last : Block} {ts : List Block} {ref : String}
  {e : ReferenceError} {limit : Nat}

theorem target_eq_error_iff (hnd : (all.map Block.id).Nodup) {referencing : String} :
    Repeatable.target all ref referencing = .error e ↔
      (ref ∉ all.map Block.id ∧ e = .missingTemplate ref referencing .unknown)
        ∨ ∃ t ∈ all, t.id = ref ∧ t.repeatable = true
            ∧ e = .missingTemplate ref referencing .repeatable := by
  by_cases hmem : ref ∈ all.map Block.id
  · obtain ⟨t, ht, rfl⟩ := List.mem_map.mp hmem
    have honly : (∃ u ∈ all, u.id = t.id ∧ u.repeatable = true
        ∧ e = .missingTemplate t.id referencing .repeatable) ↔
        t.repeatable = true ∧ e = .missingTemplate t.id referencing .repeatable := by
      constructor
      · rintro ⟨u, hu, hid, hrep⟩
        obtain rfl := eq_of_id hnd hu ht hid
        exact hrep
      · intro hrep
        exact ⟨t, ht, rfl, hrep⟩
    rw [honly, Repeatable.target, find?_id hnd ht]
    cases hrep : t.repeatable with
    | false => simp [hmem, hrep]
    | true => simp [hmem, hrep, eq_comm]
  · have hnone : all.find? (·.id == ref) = none := by
      refine List.find?_eq_none.mpr fun t ht hid => ?_
      exact hmem (beq_iff_eq.mp hid ▸ List.mem_map_of_mem ht)
    have hother : ¬∃ t ∈ all, t.id = ref ∧ t.repeatable = true
        ∧ e = .missingTemplate ref referencing .repeatable := by
      rintro ⟨t, ht, rfl, -⟩
      exact hmem (List.mem_map_of_mem ht)
    rw [Repeatable.target, hnone, or_iff_left hother]
    simp [hmem, eq_comm (b := e)]

/-- The path of a chain has the block that it started at, and one block for each hop. -/
theorem length_path (b : Block) (ts : List Block) :
    ((b :: ts).map Block.id).reverse.length = ts.length + 1 := by
  rw [List.length_reverse, List.length_map, List.length_cons]

theorem contains_path :
    ((b :: ts).map Block.id).reverse.contains ref = true ↔ ref ∈ (b :: ts).map Block.id := by
  rw [List.contains_reverse, List.contains_iff_mem]

section GoesOn

variable (hnd : (all.map Block.id).Nodup) (h : GoesOn all b ts last ref)

include hnd h

theorem GoesOn.chain_eq (hhops : ts.length ≤ limit) :
    Repeatable.chain all limit [b.id] b =
      (Repeatable.chain all limit ((b :: ts).map Block.id).reverse last).map (ts ++ ·) := by
  rw [h.through.chain_eq hnd (fitsBehind_self_iff.mpr ⟨h.distinct, hhops⟩), List.map_cons,
    List.reverse_cons]

/-- A chain with a hop left to a block that cannot serve is refused for that. -/
theorem GoesOn.chain_target (hhops : ts.length < limit) (hnew : ref ∉ (b :: ts).map Block.id)
    (htarget : Repeatable.target all ref last.id = .error e) :
    Repeatable.chain all limit [b.id] b = .error e := by
  have hroom : ¬(limit : Int) < ((b :: ts).map Block.id).reverse.length := by
    rw [length_path]
    omega
  rw [h.chain_eq hnd hhops.le, chain_named h.next, if_neg (mt contains_path.mp hnew),
    if_neg hroom, htarget]
  rfl

end GoesOn

/-- A chain is refused where the references lead to a reason for it. -/
theorem Refused.chain_eq (hnd : (all.map Block.id).Nodup) (h : Refused all limit b e) :
    Repeatable.chain all limit [b.id] b = .error e := by
  cases h with
  | @cyclic ts last ref hgoes hhops hmem =>
      rw [hgoes.chain_eq hnd hhops, chain_named hgoes.next, if_pos (contains_path.mpr hmem),
        List.reverse_reverse]
      rfl
  | @deep ts last ref hgoes hhops hnew =>
      have hroom : (limit : Int) < ((b :: ts).map Block.id).reverse.length := by
        rw [length_path]
        omega
      rw [hgoes.chain_eq hnd hhops.le, chain_named hgoes.next, if_neg (mt contains_path.mp hnew),
        if_pos hroom, length_path, hhops]
      rfl
  | unknown hgoes hhops hnew hnone =>
      exact hgoes.chain_target hnd hhops hnew ((target_eq_error_iff hnd).mpr (.inl ⟨hnone, rfl⟩))
  | repeatable hgoes hhops hnew ht hrep =>
      exact hgoes.chain_target hnd hhops hnew
        ((target_eq_error_iff hnd).mpr (.inr ⟨_, ht, rfl, hrep, rfl⟩))

/-- **A chain that is refused has a reason for it**: wherever it has come to, it went there through
blocks with distinct ids, in no more hops than the limit. -/
theorem refused_of_chain (hnd : (all.map Block.id).Nodup) {path : List String}
    (hthrough : Through all b ts current) (hpath : path = ((b :: ts).map Block.id).reverse)
    (hdistinct : ((b :: ts).map Block.id).Nodup) (hhops : ts.length ≤ limit)
    (h : Repeatable.chain all limit path current = .error e) : Refused all limit b e := by
  fun_induction Repeatable.chain all limit path current generalizing ts with
  | case1 => cases h
  | case2 path current ref href hmem =>
      cases h
      rw [hpath, contains_path] at hmem
      rw [hpath, List.reverse_reverse]
      exact .cyclic ⟨hthrough, hdistinct, href⟩ hhops hmem
  | case3 path current ref href hnew hroom =>
      cases h
      rw [hpath, contains_path] at hnew
      rw [hpath, length_path] at hroom ⊢
      have hall : ts.length = limit := by omega
      rw [hall]
      exact .deep ⟨hthrough, hdistinct, href⟩ hall hnew
  | case4 path current ref href hnew hroom ih =>
      rw [hpath, contains_path] at hnew
      rw [hpath, length_path] at hroom
      have hleft : ts.length < limit := by omega
      have hgoes : GoesOn all b ts current ref := ⟨hthrough, hdistinct, href⟩
      rcases bind_eq_error.mp h with htarget | ⟨t, htarget, hrest⟩
      · rcases (target_eq_error_iff hnd).mp htarget with ⟨hnone, rfl⟩ | ⟨t, ht, rfl, hrep, rfl⟩
        · exact .unknown hgoes hleft hnew hnone
        · exact .repeatable hgoes hleft hnew ht hrep
      · obtain ⟨ht, rfl, hrep⟩ := target_cases htarget
        have hchain : Repeatable.chain all limit (t.id :: path) t = .error e := by
          rcases bind_eq_error.mp hrest with hchain | ⟨_, _, hok⟩
          · exact hchain
          · cases hok
        have hids : (b :: (ts ++ [t])).map Block.id = (b :: ts).map Block.id ++ [t.id] := by
          simp
        -- one more hop, to a block that is not on the chain yet
        refine ih t (hthrough.snoc ⟨ht, href⟩ hrep) ?_ ?_ ?_ hchain
        · rw [hids, hpath, List.reverse_append]
          rfl
        · rw [hids]
          refine List.nodup_append.mpr ⟨hdistinct, List.nodup_singleton _, ?_⟩
          rintro a ha c hc rfl
          exact hnew (List.mem_singleton.mp hc ▸ ha)
        · rw [List.length_append, List.length_singleton]
          omega

theorem templates_eq_error_iff (hnd : (all.map Block.id).Nodup) :
    Repeatable.templates all limit b = .error e ↔ b.popin = false ∧ Refused all limit b e := by
  unfold Repeatable.templates
  cases b.popin with
  | true => simp
  | false =>
      simp only [Bool.false_eq_true, if_false, true_and]
      constructor
      · intro h
        exact refused_of_chain hnd .here rfl (List.nodup_singleton _) (Nat.zero_le _) h
      · exact Refused.chain_eq hnd

end Refusals

/-! ## All blocks -/

/-- How the chains of some blocks decide what becomes of them under a limit. -/
structure ChainVerdict (bs : List Block) (limit : Nat)
    (outcome : Except ReferenceError (List Block)) : Prop where
  /-- They are expanded if and only if all chains arrive within the limit. -/
  done : (∃ out, outcome = .ok out) ↔ ∀ b ∈ bs, EndsWithin bs limit b
  /-- An error is what the first chain is refused for that does not. -/
  refused : ∀ e, outcome = .error e ↔
    ∃ before b after, bs = before ++ b :: after ∧ (∀ a ∈ before, EndsWithin bs limit a)
      ∧ b.popin = false ∧ Refused bs limit b e

section Deciding

variable {bs : List Block} {limit : Nat} (hnd : (bs.map Block.id).Nodup)

include hnd

theorem resolveRepeatables_ok_iff :
    (∃ out, resolveRepeatables limit bs = .ok out) ↔ ∀ b ∈ bs, EndsWithin bs limit b := by
  constructor
  · rintro ⟨out, hout⟩ b hb
    obtain ⟨ts, hts, -⟩ := resolveRepeatables_eq_ok_iff.mp hout
    exact (templates_ok_iff hnd).mp ⟨ts b, hts b hb⟩
  · intro h
    exact resolveRepeatables_ok fun b hb => (templates_ok_iff hnd).mpr (h b hb)

/-- The first block whose chain is refused is reported. -/
theorem resolveRepeatables_eq_error_iff {e : ReferenceError} :
    resolveRepeatables limit bs = .error e ↔
      ∃ before b after, bs = before ++ b :: after ∧ (∀ a ∈ before, EndsWithin bs limit a)
        ∧ b.popin = false ∧ Refused bs limit b e := by
  have hchains : resolveRepeatables limit bs = .error e ↔
      bs.mapM (Repeatable.templates bs limit) = .error e := by
    rw [resolveRepeatables, bind_ok_eq_map, map_eq_error]
  rw [hchains, mapM_eq_error_iff]
  simp only [templates_ok_iff hnd, templates_eq_error_iff hnd]

theorem resolveRepeatables_verdict : ChainVerdict bs limit (resolveRepeatables limit bs) where
  done := resolveRepeatables_ok_iff hnd
  refused _ := resolveRepeatables_eq_error_iff hnd

/-- A greater limit changes nothing where the smaller one is not met. -/
theorem resolveRepeatables_mono {limit' : Nat} {out : List Block} (hle : limit ≤ limit')
    (h : resolveRepeatables limit bs = .ok out) : resolveRepeatables limit' bs = .ok out := by
  obtain ⟨ts, hts, rfl⟩ := resolveRepeatables_eq_ok_iff.mp h
  refine resolveRepeatables_eq_ok_iff.mpr ⟨ts, fun b hb => ?_, rfl⟩
  have hfound := hts b hb
  rw [templates_eq_ok_iff hnd, fitsBehind_self_iff] at hfound ⊢
  split
  · rename_i hpop
    rwa [if_pos hpop] at hfound
  · rename_i hpop
    rw [if_neg hpop] at hfound
    obtain ⟨hchained, hdistinct, hlength⟩ := hfound
    exact ⟨hchained, hdistinct, hlength.trans hle⟩

end Deciding

/-! ## Sub-forms nested in the same way -/

/-- A block that stands for the sub-form with the id of its template. -/
def nested (b : Block) : Block :=
  { b with
    subFormRef := b.repeatableBlockRef
    subFormInstanceId := none
    popin := false
    repeatableBlockRef := none }

/-- The sub-form that nests what a template names. -/
def nestForm (t : Block) : SubForm := ⟨t.id, t.title, "1.0", [nested t], none⟩

/-- For each block a sub-form with its id, nested as the templates are named. -/
def nestOf (bs : List Block) : Catalog := bs.map fun t => (t.id, nestForm t)

section Nests

variable {all : List Block} {b t : Block} {ts : List Block}

theorem nested_expansion? (b : Block) : (nested b).expansion? = b.template? := rfl

theorem mem_expansionIds_nested {id : String} :
    id ∈ expansionIds [nested b] ↔ b.template? = some id := by
  simp [expansionIds, nested_expansion?]

theorem nested_unconflicted (b : Block) : (nested b).isConflicting = false := by
  have hnone : (nested b).template? = none := rfl
  simp [Block.isConflicting, hnone]

theorem keys_nestOf (bs : List Block) : Ordered.keys (nestOf bs) = bs.map Block.id := by
  rw [nestOf, Ordered.keys, List.map_map]
  rfl

/-- What the blocks on a chain name is further along on it. -/
theorem Chained.named (h : Chained all b ts) {u : Block} (hu : u ∈ b :: ts) {ref : String}
    (href : u.template? = some ref) : ref ∈ ts.map Block.id := by
  induction h with
  | stop hnone =>
      obtain rfl := List.mem_singleton.mp hu
      rw [hnone] at href
      cases href
  | @step b t ts hname _ _ ih =>
      rcases List.mem_cons.mp hu with rfl | hu
      · rw [hname.2] at href
        cases href
        exact List.mem_cons_self ..
      · exact List.mem_cons_of_mem _ (ih hu)

section Distinct

variable (hnd : (all.map Block.id).Nodup)

include hnd

theorem get?_nestOf (ht : t ∈ all) : Ordered.get? (nestOf all) t.id = some (nestForm t) := by
  rw [← keys_nestOf] at hnd
  exact get?_of_mem hnd (List.mem_map_of_mem (f := fun t => (t.id, nestForm t)) ht)

/-- A nest leads on as the references do. -/
theorem leadsTo_nestOf_iff (ht : t ∈ all) {id : String} :
    LeadsTo (Ordered.get? (nestOf all)) t.id id ↔ t.template? = some id := by
  rw [LeadsTo, successors, get?_nestOf hnd ht]
  exact mem_expansionIds_nested

/-- The nest of a block leads to the blocks on its chain. -/
theorem Chained.nest_reached_iff (h : Chained all b ts) {id : String} :
    Reached (Ordered.get? (nestOf all)) (expansionIds [nested b]) id ↔ id ∈ ts.map Block.id := by
  constructor
  · refine fun hid => hid.closed ?_ ?_
    · intro r hr
      exact h.named (List.mem_cons_self ..) (mem_expansionIds_nested.mp hr)
    · intro a c ha hac
      obtain ⟨u, hu, rfl⟩ := List.mem_map.mp ha
      rw [leadsTo_nestOf_iff hnd (h.subset u hu)] at hac
      exact h.named (List.mem_cons_of_mem _ hu) hac
  · intro hid
    induction h with
    | stop => exact absurd hid List.not_mem_nil
    | @step b t ts hname _ _ ih =>
        have hroot : Reached (Ordered.get? (nestOf all)) (expansionIds [nested b]) t.id :=
          .root (mem_expansionIds_nested.mpr hname.2)
        rcases List.mem_cons.mp hid with rfl | hid
        · exact hroot
        · -- whatever the template's nest leads to, the template leads to
          refine (ih hid).closed ?_ fun _ _ => Reached.step
          intro r hr
          exact hroot.step ((leadsTo_nestOf_iff hnd hname.1).mpr (mem_expansionIds_nested.mp hr))

end Distinct

/-- Marks alone put nothing out. -/
theorem run_leaves (catalog : Catalog) (limit : Int) (path : List String) (n : Nat) :
    Splice.run catalog limit path (List.replicate n .leave) = .ok [] := by
  induction n generalizing path with
  | zero => rw [List.replicate_zero, Splice.run]
  | succ n ih => rw [List.replicate_succ, run_leave, ih]

/-- **A nest is spliced as the chain is followed**, as long as neither comes to an id again: with one
sub-form in progress for each block on the path but the first. -/
theorem run_nested {catalog : Catalog} {limit : Int} (h : Chained all b ts)
    (hnd : (all.map Block.id).Nodup)
    (hget : ∀ t ∈ ts, Ordered.get? catalog t.id = some (nestForm t))
    {path inProgress : List String} (hlength : path.length = inProgress.length + 1)
    (hpath : ∀ t ∈ ts, t.id ∉ path) (hnew : ∀ t ∈ ts, t.id ∉ inProgress)
    (hdistinct : (ts.map Block.id).Nodup) (n : Nat) :
    ∃ last, Splice.run catalog limit inProgress (.enter (nested b) "" :: List.replicate n .leave) =
      (Repeatable.chain all limit path b).map fun _ => [last] := by
  induction h generalizing path inProgress n with
  | @stop b hnone =>
      refine ⟨nested b, ?_⟩
      rw [run_keep ((nested_expansion? b).trans hnone), run_leaves, chain_end hnone, withSuffix_empty]
      rfl
  | @step b t ts hname hrep hrest ih =>
      obtain ⟨hgett, hget⟩ := List.forall_mem_cons.mp hget
      obtain ⟨hpatht, hpath⟩ := List.forall_mem_cons.mp hpath
      obtain ⟨hnewt, hnew⟩ := List.forall_mem_cons.mp hnew
      obtain ⟨hfresh, hdistinct⟩ := List.nodup_cons.mp hdistinct
      have hother : ∀ u ∈ ts, u.id ≠ t.id := fun u hu heq =>
        hfresh (heq ▸ List.mem_map_of_mem hu)
      by_cases hroom : (inProgress.length : Int) < limit
      · have hlength' : (t.id :: path).length = (t.id :: inProgress).length + 1 := by
          simp [hlength]
        obtain ⟨last, hlast⟩ := ih hget hlength' (fun u hu => by simp [hother u hu, hpath u hu])
          (fun u hu => by simp [hother u hu, hnew u hu]) hdistinct (n + 1)
        refine ⟨last, ?_⟩
        rw [run_splice ((nested_expansion? b).trans hname.2) (by simpa using hnewt) hroom hgett,
          chain_step hname.2 (by simpa using hpatht) (by omega) (target_of_mem hnd hname.1 hrep _)]
        refine hlast.trans ?_
        cases Repeatable.chain all limit (t.id :: path) t <;> rfl
      · refine ⟨nested b, ?_⟩
        rw [run_deep ((nested_expansion? b).trans hname.2) (by simpa using hnewt) (by omega),
          chain_deep hname.2 (by simpa using hpatht) (by omega), hlength]
        rfl

/-- Where a chain arrives, its nest is resolved as it is followed. -/
theorem Arrives.resolve_nested (hnd : (all.map Block.id).Nodup) (h : Arrives all b ts)
    {σ : Type} (limit : Int) (s : σ) :
    ∃ last, resolveSubForms (.ofCatalog (nestOf all)) limit [nested b] s =
      ((Repeatable.chain all limit [b.id] b).map fun _ => [last], s) := by
  have hreached : ∀ {id}, Reached (Ordered.get? (nestOf all)) (expansionIds [nested b]) id ↔
      id ∈ ts.map Block.id := h.chained.nest_reached_iff hnd
  have hknown : ∀ {id}, Reached (Ordered.get? (nestOf all)) (expansionIds [nested b]) id →
      ∃ t ∈ ts, t.id = id ∧ Ordered.get? (nestOf all) id = some (nestForm t) := by
    intro id hid
    obtain ⟨t, ht, rfl⟩ := List.mem_map.mp (hreached.mp hid)
    exact ⟨t, ht, rfl, get?_nestOf hnd (h.chained.subset t ht)⟩
  obtain ⟨outcome, hcol, hcollected⟩ := collectSubForms_collected (nestOf all) [nested b] s
  cases hcollected with
  | missing hfirst hnone =>
      obtain ⟨t, -, -, hget⟩ := hknown hfirst.reached
      rw [hnone] at hget
      cases hget
  | conflict hfirst hget hfind =>
      obtain ⟨t, -, -, hget'⟩ := hknown hfirst.reached
      rw [hget] at hget'
      cases hget'
      have hnone : (nestForm t).blocks.find? Block.isConflicting = none := by
        simp [nestForm, nested_unconflicted]
      rw [hnone] at hfind
      cases hfind
  | @all given hkeys hgiven =>
      cases given with
      | nil =>
          -- the block names no template
          have hnone : b.template? = none := by
            refine Option.eq_none_iff_forall_ne_some.mpr fun ref href => ?_
            have hmem := mem_expansionIds_nested.mpr href
            rw [expansionIds_of_collect_nil hcol] at hmem
            exact List.not_mem_nil hmem
          refine ⟨nested b, ?_⟩
          rw [resolveSubForms, hcol, chain_end hnone]
          rfl
      | cons entry given =>
          have hget : ∀ t ∈ ts, Ordered.get? (entry :: given) t.id = some (nestForm t) := by
            intro t ht
            have hid := hreached.mpr (List.mem_map_of_mem ht)
            rw [get?_given hkeys hgiven hid, get?_nestOf hnd (h.chained.subset t ht)]
          have hfits := List.nodup_cons.mp (List.map_cons ▸ h.distinct)
          have hone : [b.id].length = ([] : List String).length + 1 := rfl
          obtain ⟨last, hrun⟩ : ∃ last, Splice.run (entry :: given) limit []
              (.enter (nested b) "" :: List.replicate 0 .leave) = _ :=
            run_nested h.chained hnd hget hone
              (fun t ht hmem => hfits.1 (List.mem_singleton.mp hmem ▸ List.mem_map_of_mem ht))
              (fun t _ => List.not_mem_nil) hfits.2 0
          refine ⟨last, ?_⟩
          rw [resolveSubForms_eq hcol limit]
          cases hchain : Repeatable.chain all limit [b.id] b with
          | error e =>
              rw [hchain] at hrun
              rw [spliceSubForms, Splice.enterAll, List.map_singleton, show
                Splice.run (entry :: given) limit [] [.enter (nested b) ""] = _ from hrun]
              rfl
          | ok ts' =>
              rw [hchain] at hrun
              rw [spliceSubForms_eq_ok hrun rfl]
              rfl

theorem Arrives.chain_ok_iff (hnd : (all.map Block.id).Nodup) (h : Arrives all b ts) {limit : Nat} :
    (∃ out, Repeatable.chain all limit [b.id] b = .ok out) ↔ ts.length ≤ limit := by
  simp only [chain_eq_ok_iff hnd, fitsBehind_self_iff]
  constructor
  · rintro ⟨ts', hchained, -, hlength⟩
    rwa [h.chained.unique hnd hchained]
  · intro hlength
    exact ⟨ts, h.chained, h.distinct, hlength⟩

end Nests

/--
**The chains of templates decide whether blocks can be expanded.**

For blocks of distinct ids and every limit: they are expanded if and only if, from each block that
names a template and is not a popin, the references lead through blocks that are there and not
repeatable, to none of them twice and never back to the first one, and come to a block without a
reference after at most so many hops as the limit. Otherwise the first chain is refused that does
not, for what its next hop would lead to: a block on the chain, one hop too many, or a block that
cannot serve. What is expanded under a limit is expanded to the same under every greater one.

Sub-forms that are nested as the templates are named can be resolved under the same limits, and are
refused under the others with the same report.
-/
theorem chains_decide_templates {bs : List Block} (hnd : (bs.map Block.id).Nodup) :
    (∀ limit : Nat, ChainVerdict bs limit (resolveRepeatables limit bs))
      ∧ (∀ (limit limit' : Nat) (out : List Block), limit ≤ limit' →
          resolveRepeatables limit bs = .ok out → resolveRepeatables limit' bs = .ok out)
      ∧ ∀ {σ : Type} (b : Block) (ts : List Block) (limit : Nat) (s : σ), Arrives bs b ts →
          ((∃ out, Repeatable.chain bs limit [b.id] b = .ok out) ↔ ts.length ≤ limit)
            ∧ ((∃ out, resolveSubForms (.ofCatalog (nestOf bs)) limit [nested b] s = (.ok out, s)) ↔
              ts.length ≤ limit)
            ∧ ∀ e, resolveSubForms (.ofCatalog (nestOf bs)) limit [nested b] s = (.error e, s) ↔
              Repeatable.chain bs limit [b.id] b = .error e := by
  refine ⟨fun limit => resolveRepeatables_verdict hnd,
    fun limit limit' out hle => resolveRepeatables_mono hnd hle, ?_⟩
  intro σ b ts limit s harrives
  have hhops : (∃ out, Repeatable.chain bs limit [b.id] b = .ok out) ↔ ts.length ≤ limit :=
    harrives.chain_ok_iff hnd
  obtain ⟨last, hnest⟩ := harrives.resolve_nested hnd limit s
  rw [← hhops, hnest]
  refine ⟨Iff.rfl, ?_, ?_⟩
  · cases Repeatable.chain bs limit [b.id] b <;> simp [Except.map]
  · intro e
    simp [map_eq_error]

/-! ## Rows made of a dialog's template -/

/-- A dialog that names a template of its own. -/
def panelBlock : Block := { popinBlock "panel" with repeatableBlockRef := some "base" }

/-- The rows take over what the dialog has, and then what its template has. -/
def panelBlocks : List Block := [rowsOf "rows" "panel" [], panelBlock, baseBlock]

/-- Two hops are one too many for a limit of one, whether through templates or sub-forms. -/
theorem chains_decide_panel :
    (panelBlocks.map Block.id).Nodup
      ∧ Arrives panelBlocks (rowsOf "rows" "panel" []) [panelBlock, baseBlock]
      ∧ (∃ out, resolveRepeatables 2 panelBlocks = .ok out)
      ∧ resolveRepeatables 1 panelBlocks = .error (.depthExceeded "base" 2 1)
      ∧ resolveSubForms (.ofCatalog (nestOf panelBlocks) : Provider Unit) 1
          [nested (rowsOf "rows" "panel" [])] () = (.error (.depthExceeded "base" 2 1), ()) := by
  have hnd : (panelBlocks.map Block.id).Nodup := by decide
  obtain ⟨hverdict, -, hnest⟩ := chains_decide_templates hnd
  have hpanel : Names panelBlocks (rowsOf "rows" "panel" []) panelBlock := ⟨by simp [panelBlocks], rfl⟩
  have hbase : Names panelBlocks panelBlock baseBlock := ⟨by simp [panelBlocks], rfl⟩
  have harrives : Arrives panelBlocks (rowsOf "rows" "panel" []) [panelBlock, baseBlock] :=
    ⟨.step hpanel rfl (.step hbase rfl (.stop rfl)), by decide⟩
  have hgoes : GoesOn panelBlocks (rowsOf "rows" "panel" []) [panelBlock] panelBlock "base" :=
    ⟨.on hpanel rfl .here, by decide, rfl⟩
  have hrefused : Refused panelBlocks 1 (rowsOf "rows" "panel" []) (.depthExceeded "base" 2 1) :=
    .deep hgoes rfl (by decide)
  refine ⟨hnd, harrives, ?_, ?_, ?_⟩
  · refine (hverdict 2).done.mpr fun b hb hpop ref href => ?_
    rcases List.mem_cons.mp hb with rfl | hb
    · exact ⟨_, harrives, le_rfl⟩
    rcases List.mem_cons.mp hb with rfl | hb
    · cases hpop
    · obtain rfl := List.mem_singleton.mp hb
      cases href
  · exact ((hverdict 1).refused _).mpr
      ⟨[], _, _, rfl, List.forall_mem_nil _, rfl, hrefused⟩
  · exact ((hnest _ _ 1 () harrives).2.2 _).mpr (hrefused.chain_eq hnd)

end Formwork.Proofs
