import Formwork.Proofs.Context.Change
import Formwork.Proofs.Rehydration.LastEdit
import Formwork.Proofs.Rehydration.Standing

/-!
# Agreement at rest

A coordinator that is driven by edits tracks what the edits come to. As long as every
answer can be applied, the tracked context is, up to change detection, the fold of all
edits (`agrees_run`): an edit that is not submitted makes no difference to the fold
either, and no answer takes the context back. A failure does take it back, to the
snapshot's context, and this is what keeps the next edit honest: at rest the tracked
context is the snapshot's, so an edit is compared with what is applied.

Both rest on contexts being free of NaN, which every request on record inherits from the
first context and the edits (`Clean`).
-/

namespace Formwork.Proofs

open Formwork Coordinator CaseContext

/-! ## Edits -/

/-- Whether an action is an edit or comes from the requests themselves. -/
def isDriven : Action → Bool
  | .edit _ => true
  | .event e => isOwn e

/-- The context after an action, when edits are all that counts. An edit whose values cannot be
looked up is refused, and changes nothing. -/
def edited (s : RehydrationSetup) (context : Members) : Action → Members
  | .edit values =>
    match update context values s.form.discriminants with
    | .ok updated => updated
    | .error _ => context
  | .event _ => context

/-- The context after all edits, one after another. -/
def afterEdits (s : RehydrationSetup) (context : Members) (as : List Action) : Members :=
  as.foldl (edited s) context

/-- The delta that was answered merges and compiles. -/
def Applies (s : RehydrationSetup) (response : Response) : Prop :=
  ∃ d schema, response = .ok d ∧ (s.form.merge d).compile s.validators = .ok schema

/-- The action issues a request for the rules of a context, under the next number. -/
def Issues (s : RehydrationSetup) (w : World) (a : Action) (context : Members) : Prop :=
  (w.act s a).coordinator = w.coordinator.submit context
    ∧ (w.act s a).issued = w.issued ++ [⟨w.coordinator.sequence + 1, context⟩]

section Edits

variable {s : RehydrationSetup} {c : Coordinator} {values updated : Members}

theorem update_eq_ok {context : Members} {discriminants : List Field} :
    update context values discriminants = .ok updated ↔
      ∃ written, found values discriminants = .ok written
        ∧ Ordered.insertAll context written = updated :=
  map_eq_ok

/-- What an edit writes, when it submits a request. -/
theorem submitted?_edit_eq_some :
    submitted? s c (.edit values) = some updated ↔
      ∃ written, found values s.form.discriminants = .ok written
        ∧ Ordered.insertAll c.context written = updated
        ∧ differsAt (Ordered.keys written) c.context updated = true := by
  cases hfound : found values s.form.discriminants with
  | error e => simp [submitted?, Coordinator.edited?, CaseContext.edit, hfound, Except.map]
  | ok written =>
      have hsubmitted : submitted? s c (.edit values) =
          if differsAt (Ordered.keys written) c.context (Ordered.insertAll c.context written)
          then some (Ordered.insertAll c.context written) else none := by
        simp [submitted?, Coordinator.edited?, CaseContext.edit, hfound, Except.map]
      rw [hsubmitted, Option.ite_none_right_eq_some]
      constructor
      · rintro ⟨hdiffers, heq⟩
        cases heq
        exact ⟨written, rfl, rfl, hdiffers⟩
      · rintro ⟨_, heq, rfl, hdiffers⟩
        cases heq
        exact ⟨hdiffers, rfl⟩

/-- **An edit submits the updated context when that has changed, and nothing otherwise.** -/
theorem submitted?_edit_iff (h : ProperContext c.context) :
    submitted? s c (.edit values) = some updated ↔
      update c.context values s.form.discriminants = .ok updated
        ∧ hasChanged c.context updated = true := by
  rw [submitted?_edit_eq_some, update_eq_ok, ← exists_and_right]
  refine exists_congr fun written => ?_
  rw [and_assoc]
  refine and_congr_right fun _ => and_congr_right ?_
  rintro rfl
  rw [differsAt_written h]

theorem issues_iff {w : World} :
    Issues s w (.edit values) updated ↔
      submitted? s w.coordinator (.edit values) = some updated := by
  cases hs : submitted? s w.coordinator (.edit values) with
  | none => simp [Issues, World.act, hs]
  | some context =>
      simp only [Issues, World.act, hs, actOn, Option.map_some, Option.toList_some,
        List.append_cancel_left_eq, List.cons.injEq, Request.mk.injEq, Option.some.injEq]
      constructor
      · rintro ⟨-, ⟨-, heq⟩, -⟩
        exact heq
      · rintro rfl
        exact ⟨rfl, ⟨trivial, rfl⟩, trivial⟩

end Edits

/-! ## Contexts without NaN -/

/-- No context that is tracked, applied or on record has NaN in it. -/
structure Clean (w : World) : Prop where
  context : ProperContext w.coordinator.context
  snapshot : ProperContext w.coordinator.snapshot.context
  issued : ∀ r ∈ w.issued, ProperContext r.context

section Steps

variable {s : RehydrationSetup} {first : Snapshot} {w : World} {a : Action}

theorem clean_start {context : Members} {c : Coordinator} (h : start s context = .ok c)
    (hcontext : ProperContext context) : Clean (.ofCoordinator c) := by
  obtain ⟨schema, -, rfl⟩ := start_eq h
  exact ⟨hcontext, hcontext, fun r hr => absurd hr List.not_mem_nil⟩

/-- Edits and answers bring no NaN. -/
theorem clean_act (hledger : LedgerInv s first w) (h : Clean w) (hdriven : isDriven a = true)
    (hvalues : ∀ values, a = .edit values → Proper (.object values)) : Clean (w.act s a) := by
  have hm := actOn_cases s w.coordinator a
  unfold World.act
  generalize actOn s w.coordinator a = c' at hm
  cases hm with
  | still hs ht => simpa [hs, ht] using h
  | @issued _ context hs ht =>
      have hcontext : ProperContext context := by
        cases a with
        | edit values =>
            obtain ⟨written, hfound, rfl, -⟩ := submitted?_edit_eq_some.mp hs
            exact h.context.insertAll (found_proper (hvalues values rfl) hfound)
        | event e =>
            cases e with
            | submit _ => cases hdriven
            | expire _ | answer _ _ | cancel | finish => cases hs
      rw [hs, ht, submit_eq]
      refine ⟨hcontext, h.snapshot, fun r hr => ?_⟩
      rcases List.mem_append.mp hr with hr | hr
      · exact h.issued r hr
      · obtain rfl := List.mem_singleton.mp hr
        exact hcontext
  | expired he =>
      simp only [submitted?, Option.map_none, Option.toList_none, List.append_nil]
      cases he <;> exact ⟨h.context, h.snapshot, h.issued⟩
  | replied hr =>
      simp only [submitted?, Option.map_none, Option.toList_none, List.append_nil]
      cases hr with
      | absent _ | lateFailure _ _ _ | lateDelta _ _ _ => exact ⟨h.context, h.snapshot, h.issued⟩
      | failed _ _ _ | rejected _ _ _ _ => exact ⟨h.snapshot, h.snapshot, h.issued⟩
      | applied hr _ _ _ =>
          exact ⟨h.context, h.issued _ (hledger.called _ (hledger.sent.mem hr)), h.issued⟩
  | cancelled => cases hdriven
  | finished => cases hdriven

/-! ## What the edits come to -/

/-- **The tracked context follows the edits**, unless an answer cannot be applied. -/
theorem agrees_act {expected : Members} (h : hasChanged w.coordinator.context expected = false)
    (hdriven : isDriven a = true) (hvalues : ∀ values, a = .edit values → Proper (.object values))
    (happlies : ∀ t ∈ taken? w.coordinator a, Applies s t.2) :
    hasChanged (actOn s w.coordinator a).context (edited s expected a) = false := by
  cases a with
  | edit values =>
      rw [actOn, edited]
      cases hfound : found values s.form.discriminants with
      | error e => simpa [submitted?, Coordinator.edited?, CaseContext.edit, update, hfound,
          Except.map] using h
      | ok written =>
          have hproper := found_proper (hvalues values rfl) hfound
          have hupdate : update expected values s.form.discriminants =
              .ok (Ordered.insertAll expected written) := update_eq_ok.mpr ⟨written, hfound, rfl⟩
          rw [hupdate]
          cases hs : submitted? s w.coordinator (.edit values) with
          | some updated =>
              obtain ⟨written', hfound', rfl, -⟩ := submitted?_edit_eq_some.mp hs
              rw [hfound] at hfound'
              cases hfound'
              show hasChanged (w.coordinator.submit _).context
                (Ordered.insertAll expected written) = false
              rw [submit_eq]
              exact hasChanged_insertAll h hproper
          | none =>
              refine hasChanged_of_idle h (Bool.eq_false_iff.mpr fun hdiffers => ?_)
              rw [submitted?_edit_eq_some.mpr ⟨written, hfound, rfl, hdiffers⟩] at hs
              cases hs
  | event e =>
      cases e with
      | submit _ | cancel | finish => cases hdriven
      | expire n =>
          show hasChanged (w.coordinator.expire n).context expected = false
          have he := expire_cases w.coordinator n
          generalize w.coordinator.expire n = c' at he
          cases he <;> exact h
      | answer n response =>
          show hasChanged (w.coordinator.answer s n response).context expected = false
          have hr := answer_cases s w.coordinator n response
          generalize w.coordinator.answer s n response = c' at hr
          cases hr with
          | absent _ | lateFailure _ _ _ | lateDelta _ _ _ | applied _ _ _ _ => exact h
          | failed hr hn _ =>
              subst hn
              obtain ⟨d, schema, heq, -⟩ := happlies _ (taken?_of_mem hr _)
              cases heq
          | rejected hr hn _ hcomp =>
              subst hn
              obtain ⟨d, schema, heq, hok⟩ := happlies _ (taken?_of_mem hr _)
              cases heq
              rw [hcomp] at hok
              cases hok

end Steps

/-! ## Whole runs -/

section Runs

variable {s : RehydrationSetup} {first : Snapshot} {w : World} {as : List Action}

theorem taken_subset_run (s : RehydrationSetup) (w : World) (as : List Action) :
    w.taken ⊆ (w.run s as).taken := by
  induction as generalizing w with
  | nil => exact List.Subset.refl _
  | cons a as ih =>
      rw [World.run_cons]
      exact List.Subset.trans (List.subset_append_left ..) (ih (w.act s a))

theorem agrees_run {expected : Members} (h : hasChanged w.coordinator.context expected = false)
    (hdriven : ∀ a ∈ as, isDriven a = true)
    (hvalues : ∀ values, .edit values ∈ as → Proper (.object values))
    (happlies : ∀ t ∈ (w.run s as).taken, Applies s t.2) :
    hasChanged (w.run s as).coordinator.context (afterEdits s expected as) = false := by
  induction as generalizing w expected with
  | nil => exact h
  | cons a as ih =>
      rw [World.run_cons] at happlies ⊢
      have hfirst := agrees_act (s := s) h (hdriven a (List.mem_cons_self ..))
        (fun values heq => hvalues values (heq ▸ List.mem_cons_self ..)) fun t ht =>
          happlies t (taken_subset_run s (w.act s a) as
            (List.mem_append_right _ (Option.mem_toList.mpr ht)))
      exact ih hfirst (fun b hb => hdriven b (List.mem_cons_of_mem _ hb))
        (fun values hv => hvalues values (List.mem_cons_of_mem _ hv)) happlies

theorem isClosing_of_isDriven {a : Action} (h : isDriven a = true) : isClosing a = false := by
  cases a with
  | edit _ => rfl
  | event e =>
      cases e with
      | expire _ | answer _ _ => rfl
      | submit _ | cancel | finish => cases h

/-- Where nothing is live, the snapshot is what is tracked. -/
theorem Place.atRest (h : Place w) (hquiet : Quiet w.coordinator) :
    w.coordinator.context = w.coordinator.snapshot.context := by
  cases h with
  | ended _ _ _ _ hcontext => exact hcontext
  | waits _ _ hwait _ _ _ _ => rw [hquiet.1] at hwait; cases hwait
  | flies _ _ _ _ hmem _ _ _ => exact absurd hmem (hquiet.not_sent _)

/-- What a run driven by edits keeps. -/
theorem driven_run {context : Members} {c : Coordinator} (h : start s context = .ok c)
    (hcontext : ProperContext context) (hdriven : ∀ a ∈ as, isDriven a = true)
    (hvalues : ∀ values, .edit values ∈ as → Proper (.object values)) :
    LedgerInv s c.snapshot ((World.ofCoordinator c).run s as)
      ∧ Place ((World.ofCoordinator c).run s as) ∧ Clean ((World.ofCoordinator c).run s as) := by
  refine World.run_induction
    (P := fun w => LedgerInv s c.snapshot w ∧ Place w ∧ Clean w)
    (Q := fun a => isDriven a = true ∧ ∀ values, a = .edit values → Proper (.object values))
    ⟨ledgerInv_start h, place_start h, clean_start h hcontext⟩ ?_ ?_
  · rintro w a ⟨ha, hproper⟩ ⟨hledger, hplace, hclean⟩
    exact ⟨ledgerInv_act hledger a, place_act hledger hplace (isClosing_of_isDriven ha),
      clean_act hledger hclean ha hproper⟩
  · exact fun a ha => ⟨hdriven a ha, fun values heq => hvalues values (heq ▸ ha)⟩

end Runs

/--
**At rest, a coordinator that is driven by edits agrees with them.**

Whatever the edits are and in whatever order windows end and answers arrive: once no request is
live, the published context is what all edits come to, up to change detection, if every answer could
be applied. And whatever failed, a further edit issues a request exactly when it changes the
published context, and then for the changed one; an edit that issues none does nothing.
-/
theorem agreement_at_rest {s : RehydrationSetup} {context : Members} {c : Coordinator}
    (h : start s context = .ok c) (hcontext : Proper (.object context)) {as : List Action}
    (hdriven : ∀ a ∈ as, isDriven a = true)
    (hvalues : ∀ values, .edit values ∈ as → Proper (.object values))
    (hquiet : Quiet ((World.ofCoordinator c).run s as).coordinator) :
    ((∀ t ∈ ((World.ofCoordinator c).run s as).taken, Applies s t.2) →
        hasChanged ((World.ofCoordinator c).run s as).coordinator.snapshot.context
          (afterEdits s context as) = false)
      ∧ ∀ values : Members,
          (∀ updated, Issues s ((World.ofCoordinator c).run s as) (.edit values) updated ↔
            update ((World.ofCoordinator c).run s as).coordinator.snapshot.context values
                s.form.discriminants = .ok updated
              ∧ hasChanged ((World.ofCoordinator c).run s as).coordinator.snapshot.context
                updated = true)
          ∧ ((¬ ∃ updated, Issues s ((World.ofCoordinator c).run s as) (.edit values) updated) →
            ((World.ofCoordinator c).run s as).act s (.edit values)
              = (World.ofCoordinator c).run s as) := by
  have hproper : ProperContext context := by
    rw [Proper] at hcontext
    exact fun e he => hcontext.2.mem he
  obtain ⟨-, hplace, hclean⟩ := driven_run h hproper hdriven hvalues
  have hrest := hplace.atRest hquiet
  constructor
  · intro happlies
    have hbegin : hasChanged (World.ofCoordinator c).coordinator.context context = false := by
      obtain ⟨schema, -, rfl⟩ := start_eq h
      exact hasChanged_self hproper
    rw [← hrest]
    exact agrees_run hbegin hdriven hvalues happlies
  · intro values
    generalize (World.ofCoordinator c).run s as = w at hclean hrest
    constructor
    · intro updated
      rw [issues_iff, ← hrest]
      exact submitted?_edit_iff hclean.context
    · intro hnone
      have hs : submitted? s w.coordinator (.edit values) = none := by
        rw [Option.eq_none_iff_forall_ne_some]
        exact fun updated hsome => hnone ⟨updated, issues_iff.mpr hsome⟩
      simp [World.act, actOn, hs, taken?]

/-- After the overtaking the form is at the rules for the United States, and going back to France
asks again. -/
theorem agreement_at_rest_overtaking :
    start countrySetup [] = .ok countryStart
      ∧ (∀ a ∈ overtaking, isDriven a = true)
      ∧ (∀ values, .edit values ∈ overtaking → Proper (.object values))
      ∧ Quiet ((World.ofCoordinator countryStart).run countrySetup overtaking).coordinator
      ∧ (let w := (World.ofCoordinator countryStart).run countrySetup overtaking
        hasChanged w.coordinator.snapshot.context (afterEdits countrySetup [] overtaking) = false
          ∧ Issues countrySetup w (.edit [("country", .str "FR")]) [("country", .str "FR")]) := by
  have hdriven : ∀ a ∈ overtaking, isDriven a = true := by
    intro a ha
    simp only [overtaking, List.mem_cons, List.not_mem_nil, or_false] at ha
    rcases ha with rfl | rfl | rfl | rfl | rfl | rfl <;> rfl
  have hvalues : ∀ values, .edit values ∈ overtaking → Proper (.object values) := by
    intro values hv
    simp only [overtaking, List.mem_cons, List.not_mem_nil, or_false, Action.edit.injEq,
      reduceCtorEq, false_or] at hv
    rcases hv with rfl | rfl <;> simp [Proper, ProperMembers, Ordered.keys]
  have hquiet :
      Quiet ((World.ofCoordinator countryStart).run countrySetup overtaking).coordinator :=
    ⟨by rfl, by rfl⟩
  have hcontext : Proper (.object []) := by simp [Proper, ProperMembers, Ordered.keys]
  have happlies : ∀ t ∈ ((World.ofCoordinator countryStart).run countrySetup overtaking).taken,
      Applies countrySetup t.2 := by
    intro t ht
    have htaken : ((World.ofCoordinator countryStart).run countrySetup overtaking).taken =
        [(1, .ok .empty), (2, .ok countryRequired)] := by rfl
    rw [htaken] at ht
    simp only [List.mem_cons, List.not_mem_nil, or_false] at ht
    rcases ht with rfl | rfl <;> exact ⟨_, _, rfl, by rfl⟩
  obtain ⟨hagrees, hedit⟩ :=
    agreement_at_rest countryStart_eq hcontext hdriven hvalues hquiet
  exact ⟨countryStart_eq, hdriven, hvalues, hquiet, hagrees happlies,
    ((hedit [("country", .str "FR")]).1 _).mpr ⟨by rfl, by rfl⟩⟩

end Formwork.Proofs
