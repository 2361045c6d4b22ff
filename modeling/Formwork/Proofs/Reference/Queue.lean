import Formwork.Proofs.Loop
import Formwork.Proofs.Reference.Breadth
import Formwork.Proofs.Reference.Fixpoint
import Mathlib.Data.Finset.Card

/-!
# The loop that asks for sub-forms

A collection is computed with a bound on its lookups, which the provider gives. The loop
itself has none (`asking`): it takes the head of the queue, passes it over or looks it up,
and puts what that leads to behind the others.

The queue grows as it is worked through, and ids come back in it. What goes down is the
number of ids that the provider knows and that have not been fetched: a lookup that finds
something takes one of them away, and between such lookups the queue only gets shorter. So
for a provider that knows finitely many ids the loop goes on from no state forever, and the
bounded run comes to the same outcome if its bound is no less than that number.
-/

namespace Formwork.Proofs

open Formwork

variable {σ : Type}

/-- A turn of the loop. -/
inductive Asks (p : Provider σ) : Collection × σ → Collection × σ → Prop where
  /-- What has been fetched is passed over. -/
  | pass {id : String} {rest : List String} {fetched : Catalog} {s : σ} :
      id ∈ Ordered.keys fetched → Asks p (⟨id :: rest, fetched⟩, s) (⟨rest, fetched⟩, s)
  /-- What is found without conflicts is fetched, and what it stands for is asked for last. -/
  | fetch {id : String} {rest : List String} {fetched : Catalog} {f : SubForm} {s t : σ} :
      id ∉ Ordered.keys fetched → p.lookup id s = (.ok (some f), t) →
      checkConflicts f.blocks = .ok () →
      Asks p (⟨id :: rest, fetched⟩, s) (Collection.add ⟨id :: rest, fetched⟩ id rest f, t)

/-- Where the loop halts. -/
inductive AsksNoMore (p : Provider σ) :
    Collection × σ → Except ReferenceError Catalog × σ → Prop where
  | done {fetched : Catalog} {s : σ} : AsksNoMore p (⟨[], fetched⟩, s) (.ok fetched, s)
  | failed {id : String} {rest : List String} {fetched : Catalog} {e : ReferenceError} {s t : σ} :
      id ∉ Ordered.keys fetched → p.lookup id s = (.error e, t) →
      AsksNoMore p (⟨id :: rest, fetched⟩, s) (.error e, t)
  | missing {id : String} {rest : List String} {fetched : Catalog} {s t : σ} :
      id ∉ Ordered.keys fetched → p.lookup id s = (.ok none, t) →
      AsksNoMore p (⟨id :: rest, fetched⟩, s) (.error (.missingSubForm id p.available), t)
  | conflict {id : String} {rest : List String} {fetched : Catalog} {f : SubForm}
      {e : ReferenceError} {s t : σ} :
      id ∉ Ordered.keys fetched → p.lookup id s = (.ok (some f), t) →
      checkConflicts f.blocks = .error e → AsksNoMore p (⟨id :: rest, fetched⟩, s) (.error e, t)

/-- The loop that asks for sub-forms. -/
def asking (p : Provider σ) : Loop (Collection × σ) (Except ReferenceError Catalog × σ) where
  turn := Asks p
  halts := AsksNoMore p
  turn_unique hb hc := by
    cases hb with
    | pass hmem =>
        cases hc with
        | pass => rfl
        | fetch hnew => exact absurd hmem hnew
    | fetch hnew hlook hcheck =>
        cases hc with
        | pass hmem => exact absurd hmem hnew
        | fetch hnew' hlook' hcheck' =>
            rw [hlook] at hlook'
            cases hlook'
            rfl
  halts_unique hx hy := by
    cases hx <;> cases hy <;> simp_all
  exclusive hb hx := by
    cases hb <;> cases hx <;> simp_all

/-- The provider knows none but these ids. -/
def KnowsOnly (p : Provider σ) (known : Finset String) : Prop :=
  ∀ id s f t, p.lookup id s = (.ok (some f), t) → id ∈ known

/-! ## What is left to fetch -/

/-- How many of the ids have not been fetched. -/
def unfetched (known : Finset String) (c : Collection) : Nat :=
  (known \ (Ordered.keys c.fetched).toFinset).card

theorem unfetched_add_lt {known : Finset String} {c : Collection} {id : String}
    (hid : id ∈ known) (hnew : id ∉ Ordered.keys c.fetched) (rest : List String) (f : SubForm) :
    unfetched known (c.add id rest f) < unfetched known c := by
  have hkeys : Ordered.keys (c.add id rest f).fetched = Ordered.keys c.fetched ++ [id] := by
    show Ordered.keys (Ordered.insert c.fetched id f) = _
    rw [insert_of_absent hnew, Ordered.keys, List.map_append]
    rfl
  refine Finset.card_lt_card ((Finset.ssubset_iff_of_subset ?_).mpr ⟨id, ?_, ?_⟩)
  · intro x hx
    rw [hkeys] at hx
    simp only [Finset.mem_sdiff, List.mem_toFinset, List.mem_append, not_or] at hx ⊢
    exact ⟨hx.1, hx.2.1⟩
  · simp [hid, hnew]
  · simp [hkeys]

/-- What has been fetched is passed over, turn by turn, up to what is pending. -/
theorem comesTo_of_pending {p : Provider σ} {c : Collection} {s : σ}
    {x : Except ReferenceError Catalog × σ}
    (h : (asking p).ComesTo (⟨c.pending, c.fetched⟩, s) x) : (asking p).ComesTo (c, s) x := by
  obtain ⟨queue, fetched⟩ := c
  unfold Collection.pending at h
  dsimp only at h
  induction queue with
  | nil => exact h
  | cons id rest ih =>
      by_cases hhas : Ordered.has fetched id = true
      · rw [List.dropWhile_cons_of_pos hhas] at h
        exact .turn (.pass (has_iff.mp hhas)) (ih h)
      · rwa [List.dropWhile_cons_of_neg hhas] at h

section Termination

variable {p : Provider σ} {known : Finset String} (hknown : KnowsOnly p known)

include hknown

/-- **The loop goes on forever from no state.** -/
theorem asking_wellFounded : WellFounded fun b a => (asking p).turn a b := by
  have hlex : WellFounded (Prod.Lex (· < · : Nat → Nat → Prop) (· < · : Nat → Nat → Prop)) :=
    WellFounded.prod_lex Nat.lt_wfRel.wf Nat.lt_wfRel.wf
  refine Subrelation.wf ?_
    (InvImage.wf (fun a : Collection × σ => (unfetched known a.1, a.1.queue.length)) hlex)
  intro b a hturn
  cases hturn with
  | pass hmem => exact Prod.Lex.right _ (Nat.lt_succ_self _)
  | @fetch id rest fetched f s t hnew hlook _ =>
      exact Prod.Lex.left _ _ (unfetched_add_lt (hknown id s f t hlook) hnew rest f)

/-- **The bounded run comes to where the loop does**, if its bound allows to look up all that is
left. -/
theorem run_comesTo {fuel : Nat} {c : Collection} (hfuel : unfetched known c < fuel) (s : σ) :
    (asking p).ComesTo (c, s) (Collection.run p fuel c s) := by
  induction fuel generalizing c s with
  | zero => omega
  | succ fuel ih =>
      refine comesTo_of_pending ?_
      rw [Collection.run]
      cases hpend : c.pending with
      | nil => exact .halt .done
      | cons id rest =>
          have hnew := pending_absent hpend
          dsimp only
          cases hlook : p.lookup id s with
          | mk answer t =>
              cases answer with
              | error e => exact .halt (.failed hnew hlook)
              | ok found =>
                  cases found with
                  | none => exact .halt (.missing hnew hlook)
                  | some f =>
                      cases hcheck : checkConflicts f.blocks with
                      | error e =>
                          simp only [hcheck]
                          exact .halt (.conflict hnew hlook hcheck)
                      | ok checked =>
                          have hless := unfetched_add_lt (hknown id s f t hlook) hnew rest f
                          have hleft : unfetched known (c.add id rest f) < fuel := by omega
                          simp only [hcheck]
                          exact .turn (.fetch hnew hlook hcheck) (ih hleft t)

end Termination

/-! ## What a loop that returns has asked for -/

section Returning

variable {p : Provider σ} {c : Collection} {s t : σ} {catalog : Catalog}

/-- A loop that returns has looked up what it has fetched, one id after another. -/
theorem asked_of_comesTo (h : (asking p).ComesTo (c, s) (.ok catalog, t)) :
    ∃ given, catalog = c.fetched ++ given ∧ Gives p s given t
      ∧ ((Ordered.keys c.fetched).Nodup → (Ordered.keys catalog).Nodup)
      ∧ ∀ log, (asking (logged p)).ComesTo (c, (s, log))
          (.ok catalog, (t, log ++ Ordered.keys given)) := by
  generalize hstate : (c, s) = state at h
  generalize houtcome : ((.ok catalog, t) : Except ReferenceError Catalog × σ) = outcome at h
  induction h generalizing c s with
  | halt hhalt =>
      cases hhalt with
      | done =>
          cases hstate
          cases houtcome
          refine ⟨[], (List.append_nil _).symm, .nil, id, fun log => ?_⟩
          rw [show log ++ Ordered.keys ([] : Catalog) = log from List.append_nil log]
          exact .halt .done
      | failed => cases houtcome
      | missing => cases houtcome
      | conflict => cases houtcome
  | turn hturn _ ih =>
      cases hturn with
      | pass hmem =>
          cases hstate
          obtain ⟨given, hcatalog, hgives, hdistinct, hlog⟩ := ih rfl houtcome
          exact ⟨given, hcatalog, hgives, hdistinct, fun log => .turn (.pass hmem) (hlog log)⟩
      | @fetch id rest fetched f s t' hnew hlook hcheck =>
          cases hstate
          obtain ⟨given, hcatalog, hgives, hdistinct, hlog⟩ := ih rfl houtcome
          refine ⟨(id, f) :: given, ?_, .cons hlook hgives, ?_, fun log => ?_⟩
          · rw [hcatalog]
            show Ordered.insert fetched id f ++ given = _
            rw [insert_of_absent hnew, List.append_assoc, List.singleton_append]
          · exact fun hnd => hdistinct (nodup_keys_insert hnd id f)
          · -- the id is written down when it is looked up
            have hlook' : (logged p).lookup id (s, log) = (.ok (some f), (t', log ++ [id])) := by
              simp only [logged, hlook]
            have hrest := hlog (log ++ [id])
            rw [List.append_assoc] at hrest
            exact .turn (.fetch hnew hlook' hcheck) hrest

/-- A loop that returns has fetched all that can be reached, and nothing else. -/
theorem reached_of_comesTo {docs : String → Option SubForm} {roots : List String}
    (h : (asking p).ComesTo (c, s) (.ok catalog, t))
    (hdocs : ∀ entry ∈ catalog, docs entry.1 = some entry.2) (hc : Surveyed docs roots c)
    (id : String) : id ∈ Ordered.keys catalog ↔ Reached docs roots id := by
  generalize hstate : (c, s) = state at h
  generalize houtcome : ((.ok catalog, t) : Except ReferenceError Catalog × σ) = outcome at h
  induction h generalizing c s with
  | halt hhalt =>
      cases hhalt with
      | done =>
          cases hstate
          cases houtcome
          exact hc.complete rfl
      | failed => cases houtcome
      | missing => cases houtcome
      | conflict => cases houtcome
  | turn hturn hrest ih =>
      cases hturn with
      | @pass id rest fetched s hmem =>
          cases hstate
          exact ih (Surveyed.pass (c := ⟨[], fetched⟩) hc hmem) rfl houtcome
      | @fetch id rest fetched f s t' hnew hlook hcheck =>
          cases hstate
          subst houtcome
          obtain ⟨given, hcatalog, -⟩ := asked_of_comesTo hrest
          have hpend : (Collection.mk (id :: rest) fetched).pending = id :: rest := by
            rw [Collection.pending, List.dropWhile_cons_of_neg]
            simpa using has_eq_false_iff.mpr hnew
          have hget : docs id = some f := by
            refine hdocs (id, f) ?_
            rw [hcatalog]
            show (id, f) ∈ Ordered.insert fetched id f ++ given
            rw [insert_of_absent hnew]
            simp
          exact ih (hc.add hpend hget (checkConflicts_eq_ok.mp hcheck)) rfl rfl

end Returning

end Formwork.Proofs
