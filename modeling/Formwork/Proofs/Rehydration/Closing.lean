import Formwork.Proofs.Rehydration.Standing
import Mathlib.Data.List.Induction

/-!
# Closing while requests go on

Closing takes two steps: every live request is cancelled, and once those have ended the
coordinator is put back to its snapshot. In between anything may happen, a new request
included.

No request that was live at the first step is ever published: what is published later has
a number that was given out later (`Later`). The second step is another matter. It puts the
coordinator to rest without looking at what is live, and is harmless exactly when the latest
request has ended by then (`closing_tidy`): after it the coordinator is in one of the places
of an open run again, or everything in it has been dropped (`Dropped`).
-/

namespace Formwork.Proofs

open Formwork Coordinator

/-- The latest request has not ended. -/
def LatestLive (c : Coordinator) : Prop :=
  ∃ r, (r ∈ c.waiting ∨ r ∈ c.sent) ∧ r.sequence = c.sequence

/-- At rest the latest request has ended, and the context is the snapshot's. -/
structure Tidy (c : Coordinator) : Prop where
  ended : c.phase = .idle → ¬ LatestLive c
  settled : c.phase = .idle → c.context = c.snapshot.context

section NothingLive

variable {s : RehydrationSetup} {c c' : Coordinator} {n : Nat}

theorem Quiet.not_latestLive (h : Quiet c) : ¬ LatestLive c := by
  rintro ⟨r, hr | hr, -⟩
  · exact h.not_waiting r hr
  · exact h.not_sent r hr

/-- With nothing live, no waiting ends and no answer arrives. -/
theorem Quiet.expiry (h : Quiet c) (he : Expiry c n c') : c' = c := by
  cases he with
  | absent _ => rfl
  | lapsed hr _ _ | called hr _ _ => exact absurd hr (h.not_waiting _)

theorem Quiet.reply (h : Quiet c) {response : Response} (hr : Reply s c n response c') :
    c' = c := by
  cases hr with
  | absent _ => rfl
  | lateFailure hr _ _ | lateDelta hr _ _ | failed hr _ _ | rejected hr _ _ _
  | applied hr _ _ _ => exact absurd hr (h.not_sent _)

end NothingLive

/-- The latest request has been cancelled, and the coordinator has not been put to rest. -/
structure Dropped (c : Coordinator) : Prop where
  phase : c.phase ≠ .idle
  quiet : Quiet c

/-! ## Putting the coordinator to rest -/

section Steps

variable {s : RehydrationSetup} {first : Snapshot} {w : World} {a : Action}

/-- What holds at rest. -/
theorem Place.resting (h : Place w) (hidle : w.coordinator.phase = .idle) :
    w.coordinator.pending = none ∧ w.coordinator.waiting = []
      ∧ (∀ r ∈ w.coordinator.sent, ¬ IsLatest w r)
      ∧ w.coordinator.context = w.coordinator.snapshot.context := by
  cases h with
  | ended _ hpend hwait hsent hcontext => exact ⟨hpend, hwait, hsent, hcontext⟩
  | waits hphase _ _ _ _ _ _ => rw [hphase] at hidle; cases hidle
  | flies hphase _ _ _ _ _ _ _ => rw [hphase] at hidle; cases hidle

/-- Away from its rest, the coordinator has a live latest request. -/
theorem Place.latestLive (h : Place w) (hbusy : w.coordinator.phase ≠ .idle) :
    LatestLive w.coordinator := by
  cases h with
  | ended hphase _ _ _ _ => exact absurd hphase hbusy
  | @waits r _ _ hwait hlatest _ _ _ =>
      refine ⟨r, .inl ?_, hlatest⟩
      rw [hwait]
      exact List.mem_singleton.mpr rfl
  | @flies r _ _ _ hlatest hmem _ _ _ => exact ⟨r, .inr hmem, hlatest⟩

theorem tidy_of_place (h : Place w ∨ Dropped w.coordinator) : Tidy w.coordinator := by
  rcases h with h | h
  · constructor
    · rintro hidle ⟨r, hr | hr, hlatest⟩
      · rw [(h.resting hidle).2.1] at hr
        exact absurd hr List.not_mem_nil
      · exact (h.resting hidle).2.2.1 r hr hlatest
    · exact fun hidle => (h.resting hidle).2.2.2
  · exact ⟨fun hidle => absurd hidle h.phase, fun hidle => absurd hidle h.phase⟩

theorem place_cancel (h : Place w) :
    Place (w.act s (.event .cancel)) ∨ Dropped (w.act s (.event .cancel)).coordinator := by
  by_cases hidle : w.coordinator.phase = .idle
  · obtain ⟨hpend, -, -, hcontext⟩ := h.resting hidle
    exact .inl (.ended hidle hpend rfl (fun r hr => absurd hr List.not_mem_nil) hcontext)
  · exact .inr ⟨hidle, rfl, rfl⟩

/-- Once the latest request has ended, nothing is lost by putting the coordinator to rest. -/
theorem place_finish (h : Place w) (hended : ¬ LatestLive w.coordinator) :
    Place (w.act s (.event .finish)) := by
  have hidle : w.coordinator.phase = .idle := by
    by_contra hbusy
    exact hended (h.latestLive hbusy)
  obtain ⟨-, hwait, hsent, -⟩ := h.resting hidle
  have hact : (w.act s (.event .finish)).coordinator = w.coordinator.finish := rfl
  rw [Coordinator.finish, enter_eq] at hact
  refine .ended ?_ ?_ ?_ ?_ ?_
  · rw [hact]
  · rw [hact]
  · rw [hact]; exact hwait
  · intro r hr hlatest
    rw [hact] at hr
    rw [IsLatest, hact] at hlatest
    exact hsent r hr hlatest
  · rw [hact]

theorem dropped_act (h : Dropped w.coordinator) (a : Action) :
    Place (w.act s a) ∨ Dropped (w.act s a).coordinator := by
  have hbusy := h.phase
  have hquiet := h.quiet
  have hm := actOn_cases s w.coordinator a
  unfold World.act
  generalize actOn s w.coordinator a = c' at hm
  cases hm with
  | still _ _ => exact .inr ⟨hbusy, hquiet⟩
  | issued hs ht =>
      have hnone : unsettled w.coordinator = [] := by
        have := unsettled_sublist w.coordinator
        rw [hquiet.1] at this
        exact List.sublist_nil.mp this
      have hbound : ∀ r ∈ w.coordinator.sent, r.sequence ≤ w.coordinator.sequence :=
        fun r hr => absurd hr (hquiet.not_sent r)
      rw [hs, ht]
      exact .inl ((place_issued hnone hbound _).record _)
  | expired he =>
      obtain rfl := hquiet.expiry he
      exact .inr ⟨hbusy, hquiet⟩
  | replied hr =>
      obtain rfl := hquiet.reply hr
      exact .inr ⟨hbusy, hquiet⟩
  | cancelled => exact .inr ⟨hbusy, rfl, rfl⟩
  | finished =>
      exact .inl (.ended rfl rfl hquiet.1 (fun r hr => absurd hr (hquiet.not_sent r)) rfl)

/-- **Every action keeps the latest request in its place or drops it**, if the coordinator is not
put to rest over it. -/
theorem kept_act (hledger : LedgerInv s first w) (h : Place w ∨ Dropped w.coordinator)
    (hfinish : a = .event .finish → ¬ LatestLive w.coordinator) :
    Place (w.act s a) ∨ Dropped (w.act s a).coordinator := by
  rcases h with h | h
  · cases hclosing : isClosing a with
    | false => exact .inl (place_act hledger h hclosing)
    | true =>
        cases a with
        | edit _ => cases hclosing
        | event e =>
            cases e with
            | submit _ | expire _ | answer _ _ => cases hclosing
            | cancel => exact place_cancel h
            | finish => exact .inl (place_finish h (hfinish rfl))
  · exact dropped_act h a

end Steps

/-! ## What was cancelled is not published -/

/-- Nothing of a coordinator before is live any more, and what has been published since is newer. -/
structure Later (before c : Coordinator) : Prop where
  sequence : before.sequence ≤ c.sequence
  waiting : ∀ r ∈ c.waiting, before.sequence < r.sequence
  sent : ∀ r ∈ c.sent, before.sequence < r.sequence
  published : ∃ newer, c.published = before.published ++ newer
    ∧ ∀ p ∈ newer, before.sequence < p.sequence

section Cancelled

variable {s : RehydrationSetup} {before c : Coordinator}

theorem later_cancel (c : Coordinator) : Later c c.cancel :=
  ⟨Nat.le_refl _, fun _ hr => absurd hr List.not_mem_nil, fun _ hr => absurd hr List.not_mem_nil,
    [], (List.append_nil _).symm, fun _ hp => absurd hp List.not_mem_nil⟩

theorem later_act (h : Later before c) (a : Action) : Later before (actOn s c a) := by
  have hm := actOn_cases s c a
  generalize actOn s c a = c' at hm
  cases hm with
  | still _ _ => exact h
  | issued _ _ =>
      rw [submit_eq]
      refine ⟨Nat.le_succ_of_le h.sequence, fun r hr => ?_, h.sent, h.published⟩
      rcases List.mem_append.mp hr with hr | hr
      · exact h.waiting r ((unsettled_sublist c).mem hr)
      · obtain rfl := List.mem_singleton.mp hr
        exact Nat.lt_succ_of_le h.sequence
  | expired he =>
      cases he with
      | absent _ => exact h
      | lapsed _ _ _ =>
          exact ⟨h.sequence, fun r hr => h.waiting r (mem_without.mp hr).1, h.sent, h.published⟩
      | called hr _ _ =>
          refine ⟨h.sequence, fun r hr => h.waiting r (mem_without.mp hr).1, fun q hq => ?_,
            h.published⟩
          rcases List.mem_append.mp hq with hq | hq
          · exact h.sent q hq
          · obtain rfl := List.mem_singleton.mp hq
            exact h.waiting _ hr
  | replied hr =>
      cases hr with
      | absent _ => exact h
      | lateFailure _ _ _ | lateDelta _ _ _ | failed _ _ _ | rejected _ _ _ _ =>
          exact ⟨h.sequence, h.waiting, fun r hr => h.sent r (mem_without.mp hr).1, h.published⟩
      | applied hr _ _ _ =>
          refine ⟨h.sequence, h.waiting, fun r hr => h.sent r (mem_without.mp hr).1, ?_⟩
          obtain ⟨newer, heq, hnewer⟩ := h.published
          refine ⟨newer ++ [_], by rw [heq, List.append_assoc], fun p hp => ?_⟩
          rcases List.mem_append.mp hp with hp | hp
          · exact hnewer p hp
          · obtain rfl := List.mem_singleton.mp hp
            exact h.sent _ hr
  | cancelled =>
      exact ⟨h.sequence, fun _ hr => absurd hr List.not_mem_nil,
        fun _ hr => absurd hr List.not_mem_nil, h.published⟩
  | finished => exact ⟨h.sequence, h.waiting, h.sent, h.published⟩

/-- Where nothing is live, only a new request changes that. -/
theorem quiet_act (h : Quiet c) {a : Action} (hnone : submitted? s c a = none) :
    Quiet (actOn s c a) := by
  have hm := actOn_cases s c a
  generalize actOn s c a = c' at hm
  cases hm with
  | still _ _ => exact h
  | issued hs _ => rw [hnone] at hs; cases hs
  | expired he => rwa [h.expiry he]
  | replied hr => rwa [h.reply hr]
  | cancelled => exact ⟨rfl, rfl⟩
  | finished => exact h

end Cancelled

/-! ## Whole runs -/

section Runs

variable {s : RehydrationSetup} {c : Coordinator} {context : Members}

/-- No run puts the coordinator to rest over a live latest request. -/
def FinishesEnded (s : RehydrationSetup) (w : World) (as : List Action) : Prop :=
  ∀ before, before ++ [.event .finish] <+: as → ¬ LatestLive (w.run s before).coordinator

theorem FinishesEnded.mono {w : World} {as bs : List Action} (h : FinishesEnded s w bs)
    (hab : as <+: bs) : FinishesEnded s w as :=
  fun before hbefore => h before (hbefore.trans hab)

theorem finishesEnded_cons {w : World} {a : Action} {as : List Action} :
    FinishesEnded s w (a :: as) ↔
      (a = .event .finish → ¬ LatestLive w.coordinator) ∧ FinishesEnded s (w.act s a) as := by
  constructor
  · intro h
    refine ⟨?_, fun before hbefore => h (a :: before) ?_⟩
    · rintro rfl
      exact h [] ⟨as, rfl⟩
    · exact (List.prefix_cons_inj a).mpr hbefore
  · rintro ⟨hfirst, hrest⟩ before hbefore
    cases before with
    | nil => exact hfirst (List.cons_prefix_cons.mp hbefore).1.symm
    | cons b before =>
        have hparts : b = a ∧ before ++ [.event .finish] <+: as :=
          List.cons_prefix_cons.mp hbefore
        obtain ⟨rfl, htail⟩ := hparts
        exact hrest before htail

theorem kept_run (h : start s context = .ok c) {as : List Action}
    (hfinish : FinishesEnded s (.ofCoordinator c) as) :
    Place ((World.ofCoordinator c).run s as)
      ∨ Dropped ((World.ofCoordinator c).run s as).coordinator := by
  induction as using List.reverseRecOn with
  | nil => exact .inl (place_start h)
  | append_singleton as a ih =>
      have hbefore := ih (hfinish.mono (List.prefix_append ..))
      rw [World.run_append]
      refine kept_act (ledgerInv_run h as) hbefore ?_
      rintro rfl
      exact hfinish as (List.prefix_refl _)

/-- Putting the coordinator to rest over a live latest request leaves it live. -/
theorem not_tidy_of_finish {w : World} (h : LatestLive w.coordinator) :
    ¬ Tidy (w.act s (.event .finish)).coordinator := by
  have hact : (w.act s (.event .finish)).coordinator = w.coordinator.finish := rfl
  rw [hact, Coordinator.finish, enter_eq]
  exact fun htidy => htidy.ended rfl h

theorem later_run {w : World} (as : List Action) :
    Later w.coordinator ((w.act s (.event .cancel)).run s as).coordinator :=
  World.run_induction (P := fun w' => Later w.coordinator w'.coordinator) (Q := fun _ => True)
    (later_cancel w.coordinator) (fun _ a _ h => later_act h a) (fun _ _ => trivial)

/-- Without a new request, nothing is live after a cancellation. -/
theorem quiet_run {w : World} {as : List Action}
    (hnone : ((w.act s (.event .cancel)).run s as).issued = w.issued) :
    Quiet ((w.act s (.event .cancel)).run s as).coordinator := by
  have hkept : w.issued.length ≤ ((w.act s (.event .cancel)).run s as).issued.length
      ∧ (((w.act s (.event .cancel)).run s as).issued.length = w.issued.length →
        Quiet ((w.act s (.event .cancel)).run s as).coordinator) := by
    refine World.run_induction
      (P := fun w' => w.issued.length ≤ w'.issued.length
        ∧ (w'.issued.length = w.issued.length → Quiet w'.coordinator))
      (Q := fun _ => True) ?_ ?_ (fun _ _ => trivial)
    · have hissued : (w.act s (.event .cancel)).issued = w.issued := List.append_nil _
      rw [hissued]
      exact ⟨Nat.le_refl _, fun _ => ⟨rfl, rfl⟩⟩
    · rintro w' a - ⟨hle, hquiet⟩
      cases hs : submitted? s w'.coordinator a with
      | some context =>
          have hlength : (w'.act s a).issued.length = w'.issued.length + 1 := by
            simp [World.act, hs]
          exact ⟨by omega, fun heq => absurd heq (by omega)⟩
      | none =>
          have hissued : (w'.act s a).issued = w'.issued := by
            simp [World.act, hs]
          rw [hissued]
          exact ⟨hle, fun heq => quiet_act (hquiet heq) hs⟩
  exact hkept.2 (congrArg List.length hnone)

end Runs

/--
**Closing is clean exactly when it does not finish over a live request.**

Of whatever is done to a coordinator, closing at any moments included: in every state on the way,
rest means that the latest request has ended and that the context is the snapshot's, exactly if the
coordinator is never put to rest while its latest request is live. No request that is live when
everything is cancelled is published afterwards. And without a new request nothing is live after a
cancellation, so that a closing into which none comes is clean.
-/
theorem closing_tidy {s : RehydrationSetup} {context : Members} {c : Coordinator}
    (h : start s context = .ok c) (as : List Action) :
    ((∀ before, before <+: as → Tidy ((World.ofCoordinator c).run s before).coordinator) ↔
        FinishesEnded s (.ofCoordinator c) as)
      ∧ ∀ before after, as = before ++ .event .cancel :: after →
          (∃ newer, ((World.ofCoordinator c).run s as).coordinator.published =
              ((World.ofCoordinator c).run s before).coordinator.published ++ newer
            ∧ ∀ r, r ∈ ((World.ofCoordinator c).run s before).coordinator.waiting
                ∨ r ∈ ((World.ofCoordinator c).run s before).coordinator.sent →
              ∀ p ∈ newer, p.sequence ≠ r.sequence)
          ∧ (((World.ofCoordinator c).run s as).issued =
              ((World.ofCoordinator c).run s before).issued →
            Quiet ((World.ofCoordinator c).run s as).coordinator) := by
  constructor
  · constructor
    · intro htidy before hbefore hlive
      have hafter := htidy _ hbefore
      rw [World.run_append] at hafter
      exact not_tidy_of_finish hlive hafter
    · intro hfinish before hbefore
      exact tidy_of_place (kept_run h (hfinish.mono hbefore))
  · rintro before after rfl
    have hledger := ledgerInv_run h before
    rw [World.run_append, World.run_cons]
    refine ⟨?_, quiet_run⟩
    obtain ⟨newer, hpublished, hnewer⟩ := (later_run (s := s) after).published
    refine ⟨newer, hpublished, fun r hr p hp heq => ?_⟩
    have hbound : r.sequence ≤
        ((World.ofCoordinator c).run s before).coordinator.sequence := by
      rcases hr with hr | hr
      · exact (hledger.bounds (hledger.waiting.mem hr)).2
      · exact (hledger.bounds (hledger.called r (hledger.sent.mem hr))).2
    have := hnewer p hp
    omega

/-- A request is closed while it is in flight, and the next one is answered. -/
def closedInFlight : List Action :=
  [.edit [("country", .str "FR")], .event (.expire 1), .event .cancel,
    .event (.answer 1 (.ok countryRequired)), .event .finish, .edit [("country", .str "US")],
    .event (.expire 2), .event (.answer 2 (.ok .empty))]

theorem closing_tidy_inFlight :
    start countrySetup [] = .ok countryStart
      ∧ FinishesEnded countrySetup (.ofCoordinator countryStart) closedInFlight
      ∧ (let w := (World.ofCoordinator countryStart).run countrySetup closedInFlight
        Tidy w.coordinator ∧ w.coordinator.published.map Snapshot.sequence = [2]) := by
  have hfinish : FinishesEnded countrySetup (.ofCoordinator countryStart) closedInFlight := by
    simp only [closedInFlight, finishesEnded_cons, reduceCtorEq, false_implies, true_and,
      Action.event.injEq, forall_const]
    refine ⟨Quiet.not_latestLive ⟨rfl, rfl⟩, ?_⟩
    rintro before ⟨after, heq⟩
    simp at heq
  exact ⟨countryStart_eq, hfinish,
    (closing_tidy countryStart_eq closedInFlight).1.mpr hfinish _ (List.prefix_refl _), by rfl⟩

/-- A request comes between the two steps of closing: the coordinator is put to rest over it, and
once it is answered the context is no more that of the snapshot. -/
theorem closing_overtaken :
    start countrySetup [] = .ok countryStart
      ∧ (let w := (World.ofCoordinator countryStart).run countrySetup
          [.edit [("country", .str "FR")], .event .cancel, .edit [("country", .str "US")],
            .event .finish]
        w.coordinator.phase = .idle ∧ LatestLive w.coordinator)
      ∧ (let w := (World.ofCoordinator countryStart).run countrySetup
          [.edit [("country", .str "FR")], .event .cancel, .edit [("country", .str "US")],
            .event .finish, .event (.expire 2), .event (.answer 2 (.ok .empty))]
        w.coordinator.phase = .idle ∧ w.coordinator.context = []
          ∧ w.coordinator.snapshot.context = [("country", .str "US")]) := by
  have hlive : LatestLive ((World.ofCoordinator countryStart).run countrySetup
      [.edit [("country", .str "FR")], .event .cancel, .edit [("country", .str "US")],
        .event .finish]).coordinator :=
    ⟨⟨2, [("country", .str "US")]⟩, .inl (List.mem_singleton.mpr rfl), rfl⟩
  exact ⟨countryStart_eq, ⟨rfl, hlive⟩, rfl, rfl, rfl⟩

end Formwork.Proofs
