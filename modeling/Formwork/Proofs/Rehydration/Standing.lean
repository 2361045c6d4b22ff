import Formwork.Proofs.Rehydration.Ledger

/-!
# Where the latest request stands

The phase, the pending request, the tracked context and the live requests are written
at different moments. As long as the coordinator is not being closed they agree
(`Standing`): a waiting request is the latest one, the phase tells where the latest
request is, and the context is its context while it is live and the snapshot's when it
is not.

The invariant that carries this is by cases (`Place`): the latest request has ended, or
it waits alone, or it is in flight and nothing waits. Older requests may be in flight in
each of them, and their answers never move the latest one.
-/

namespace Formwork.Proofs

open Formwork Coordinator

/-- Whether an action is part of closing. -/
def isClosing : Action → Bool
  | .event .cancel => true
  | .event .finish => true
  | _ => false

/-- The request is inside its debounce window. -/
def InWindow (w : World) (r : Request) : Prop := r ∈ w.coordinator.waiting

/-- The provider has been called for the request and has not answered. -/
def InFlight (w : World) (r : Request) : Prop :=
  r ∈ w.coordinator.calls ∧ ∀ a ∈ w.taken, a.1 ≠ r.sequence

/-- The request has the latest number. -/
def IsLatest (w : World) (r : Request) : Prop := r.sequence = w.coordinator.sequence

/-- Phase, context and snapshot agree with the live requests. -/
structure Standing (w : World) : Prop where
  /-- One request at most is in its window. -/
  single : w.coordinator.waiting.length ≤ 1
  /-- A request in its window is the latest. -/
  window : ∀ r, InWindow w r → IsLatest w r
  pendingDebounce : w.coordinator.phase = .pendingDebounce ↔ ∃ r, InWindow w r ∧ IsLatest w r
  fetching : w.coordinator.phase = .fetching ↔ ∃ r, InFlight w r ∧ IsLatest w r
  idle : w.coordinator.phase = .idle ↔ ¬ ∃ r, (InWindow w r ∨ InFlight w r) ∧ IsLatest w r
  /-- At rest the context is the snapshot's. -/
  settled : w.coordinator.phase = .idle → w.coordinator.context = w.coordinator.snapshot.context
  /-- Otherwise it is the one submitted last. -/
  tracked : w.coordinator.phase ≠ .idle →
    w.issued.getLast? = some ⟨w.coordinator.sequence, w.coordinator.context⟩
  /-- The snapshot is not ahead of the requests. -/
  snapshot : w.coordinator.snapshot.sequence ≤ w.coordinator.sequence

/-! ## The place of the latest request -/

/-- Where the latest request is, and what the coordinator holds there. -/
inductive Place (w : World) : Prop where
  /-- It has ended, or there has been none. -/
  | ended :
      w.coordinator.phase = .idle → w.coordinator.pending = none → w.coordinator.waiting = [] →
      (∀ r ∈ w.coordinator.sent, ¬ IsLatest w r) →
      w.coordinator.context = w.coordinator.snapshot.context → Place w
  /-- It waits, and nothing else does. -/
  | waits {r : Request} :
      w.coordinator.phase = .pendingDebounce → w.coordinator.pending = some r.sequence →
      w.coordinator.waiting = [r] → IsLatest w r → (∀ q ∈ w.coordinator.sent, ¬ IsLatest w q) →
      w.issued.getLast? = some r → r.context = w.coordinator.context → Place w
  /-- It is in flight, and nothing waits. -/
  | flies {r : Request} :
      w.coordinator.phase = .fetching → w.coordinator.pending = none →
      w.coordinator.waiting = [] → IsLatest w r → r ∈ w.coordinator.sent →
      (∀ q ∈ w.coordinator.sent, IsLatest w q → q = r) →
      w.issued.getLast? = some r → r.context = w.coordinator.context → Place w

theorem place_start {s : RehydrationSetup} {context : Members} {c : Coordinator}
    (h : start s context = .ok c) : Place (.ofCoordinator c) := by
  obtain ⟨schema, _, rfl⟩ := start_eq h
  exact .ended rfl rfl rfl (fun r hr => absurd hr List.not_mem_nil) rfl

section Steps

variable {s : RehydrationSetup} {w : World}

/-- A request takes the place of the one that waits. -/
theorem Place.unsettled_eq (h : Place w) : unsettled w.coordinator = [] := by
  unfold unsettled
  cases h with
  | ended _ hpend hwait _ _ => rw [hpend, hwait]
  | waits _ hpend hwait _ _ _ _ => rw [hpend, hwait]; simp [without]
  | flies _ hpend hwait _ _ _ _ _ => rw [hpend, hwait]

/-- A new request waits alone when it leaves no other waiting, and what is in flight has a number
that has been given out. -/
theorem place_issued (hnone : unsettled w.coordinator = [])
    (hsent : ∀ r ∈ w.coordinator.sent, r.sequence ≤ w.coordinator.sequence) (context : Members) :
    Place
      { w with
        coordinator := w.coordinator.submit context
        issued := w.issued ++ [⟨w.coordinator.sequence + 1, context⟩] } := by
  rw [submit_eq, hnone]
  refine .waits (r := ⟨w.coordinator.sequence + 1, context⟩) rfl rfl rfl rfl ?_ ?_ rfl
  · intro r hr hlatest
    have hle := hsent r hr
    have heq : r.sequence = w.coordinator.sequence + 1 := hlatest
    omega
  · exact List.getLast?_concat

theorem place_submit (h : Place w)
    (hsent : ∀ r ∈ w.coordinator.sent, r.sequence ≤ w.coordinator.sequence) (context : Members) :
    Place
      { w with
        coordinator := w.coordinator.submit context
        issued := w.issued ++ [⟨w.coordinator.sequence + 1, context⟩] } :=
  place_issued h.unsettled_eq hsent context

theorem place_expiry (h : Place w) {n : Nat} {c' : Coordinator}
    (hc : Expiry w.coordinator n c') : Place { w with coordinator := c' } := by
  cases hc with
  | absent _ => exact h
  | @lapsed r hr hn hold =>
      -- only the latest request waits, so none of them lapses
      exfalso
      cases h with
      | ended _ _ hwait _ _ => rw [hwait] at hr; exact absurd hr List.not_mem_nil
      | flies _ _ hwait _ _ _ _ _ => rw [hwait] at hr; exact absurd hr List.not_mem_nil
      | waits _ _ hwait hlatest _ _ _ =>
          rw [hwait] at hr
          obtain rfl := List.mem_singleton.mp hr
          exact hold (hn.symm.trans hlatest)
  | @called r hr hn hlast =>
      cases h with
      | ended _ _ hwait _ _ => rw [hwait] at hr; exact absurd hr List.not_mem_nil
      | flies _ _ hwait _ _ _ _ _ => rw [hwait] at hr; exact absurd hr List.not_mem_nil
      | waits _ hpend hwait hlatest hsent hissued hcontext =>
          rw [hwait] at hr
          obtain rfl := List.mem_singleton.mp hr
          refine .flies (r := r) rfl ?_ ?_ hlatest ?_ ?_ hissued hcontext
          · show pendingWithout w.coordinator n = none
            rw [pendingWithout, hpend, hn, if_pos rfl]
          · show without n w.coordinator.waiting = []
            rw [hwait]
            simp [without, hn]
          · exact List.mem_append_right _ (List.mem_singleton.mpr rfl)
          · intro q hq hql
            rcases List.mem_append.mp hq with hq | hq
            · exact absurd hql (hsent q hq)
            · exact List.mem_singleton.mp hq

/-- An answer to another request leaves the latest one where it is. -/
theorem Place.late (h : Place w) {n : Nat} (hold : n ≠ w.coordinator.sequence)
    (discarded : Nat) :
    Place
      { w with
        coordinator :=
          { w.coordinator with sent := without n w.coordinator.sent, discarded := discarded } } := by
  cases h with
  | ended hphase hpend hwait hsent hcontext =>
      exact .ended hphase hpend hwait (fun q hq => hsent q (mem_without.mp hq).1) hcontext
  | waits hphase hpend hwait hlatest hsent hissued hcontext =>
      exact .waits hphase hpend hwait hlatest (fun q hq => hsent q (mem_without.mp hq).1)
        hissued hcontext
  | @flies r hphase hpend hwait hlatest hmem huniq hissued hcontext =>
      have hne : r.sequence ≠ n := fun heq => hold (heq.symm.trans hlatest)
      exact .flies hphase hpend hwait hlatest (mem_without.mpr ⟨hmem, hne⟩)
        (fun q hq => huniq q (mem_without.mp hq).1) hissued hcontext

/-- Once the latest request has its answer, it has ended. -/
theorem Place.decided (h : Place w) {r : Request} {n : Nat} (hr : r ∈ w.coordinator.sent)
    (hn : r.sequence = n) (hlast : n = w.coordinator.sequence) :
    w.coordinator.pending = none ∧ w.coordinator.waiting = []
      ∧ r.context = w.coordinator.context
      ∧ ∀ q ∈ without n w.coordinator.sent, ¬ IsLatest w q := by
  have hlatest : IsLatest w r := hn.trans hlast
  cases h with
  | ended _ _ _ hsent _ => exact absurd hlatest (hsent r hr)
  | waits _ _ _ _ hsent _ _ => exact absurd hlatest (hsent r hr)
  | flies _ hpend hwait _ _ huniq _ hcontext =>
      obtain rfl := huniq r hr hlatest
      refine ⟨hpend, hwait, hcontext, fun q hq hq' => ?_⟩
      exact (mem_without.mp hq).2 (hq'.trans hlast.symm)

theorem place_reply (h : Place w) {n : Nat} {response : Response} {c' : Coordinator}
    (hc : Reply s w.coordinator n response c') : Place { w with coordinator := c' } := by
  cases hc with
  | absent _ => exact h
  | lateFailure _ _ hold => exact h.late hold _
  | lateDelta _ _ hold => exact h.late hold _
  | failed hr hn hlast | rejected hr hn hlast _ =>
      obtain ⟨hpend, hwait, -, hsent⟩ := h.decided hr hn hlast
      exact .ended rfl hpend hwait hsent rfl
  | applied hr hn hlast _ =>
      -- the snapshot is made for the latest request, whose context is tracked
      obtain ⟨hpend, hwait, hcontext, hsent⟩ := h.decided hr hn hlast
      exact .ended rfl hpend hwait hsent hcontext.symm

/-- The answers on record do not place the latest request. -/
theorem Place.record (h : Place w) (taken : List (Nat × Response)) :
    Place { w with taken := taken } := by
  cases h with
  | ended hphase hpend hwait hsent hcontext => exact .ended hphase hpend hwait hsent hcontext
  | waits hphase hpend hwait hlatest hsent hissued hcontext =>
      exact .waits hphase hpend hwait hlatest hsent hissued hcontext
  | flies hphase hpend hwait hlatest hmem huniq hissued hcontext =>
      exact .flies hphase hpend hwait hlatest hmem huniq hissued hcontext

/-- **The latest request is in one of its places after every action but closing.** -/
theorem place_act {first : Snapshot} (hledger : LedgerInv s first w) (h : Place w) {a : Action}
    (hopen : isClosing a = false) : Place (w.act s a) := by
  have hm := actOn_cases s w.coordinator a
  unfold World.act
  generalize actOn s w.coordinator a = c' at hm
  cases hm with
  | still hs ht => simpa [hs, ht] using h
  | issued hs ht =>
      have hsent : ∀ r ∈ w.coordinator.sent, r.sequence ≤ w.coordinator.sequence :=
        fun r hr => (hledger.bounds (hledger.called r (hledger.sent.mem hr))).2
      simpa [hs, ht] using place_submit h hsent _
  | expired he => simpa [submitted?, taken?] using place_expiry h he
  | replied hr => simpa [submitted?] using (place_reply h hr).record _
  | cancelled => cases hopen
  | finished => cases hopen

end Steps

/-! ## Calls without an answer -/

/-- Every call is in flight or has an answer on record. -/
def CallsTraced (w : World) : Prop :=
  ∀ r ∈ w.coordinator.calls, r ∈ w.coordinator.sent ∨ ∃ a ∈ w.taken, a.1 = r.sequence

theorem callsTraced_expiry {w : World} (h : CallsTraced w) {n : Nat} {c' : Coordinator}
    (hc : Expiry w.coordinator n c') : CallsTraced { w with coordinator := c' } := by
  cases hc with
  | absent _ => exact h
  | lapsed _ _ _ => exact h
  | called hr hn hlast =>
      intro q hq
      rcases List.mem_append.mp hq with hq | hq
      · exact (h q hq).imp_left (List.mem_append_left _)
      · exact .inl (List.mem_append_right _ hq)

/-- An answer that arrives goes on record. -/
theorem CallsTraced.take {w : World} (h : CallsTraced w) (r : Request) (response : Response) :
    CallsTraced
      { w with
        coordinator := { w.coordinator with sent := without r.sequence w.coordinator.sent }
        taken := w.taken ++ [(r.sequence, response)] } := by
  intro q hq
  by_cases hqr : q.sequence = r.sequence
  · exact .inr ⟨_, List.mem_append_right _ (List.mem_singleton.mpr rfl), hqr.symm⟩
  · rcases h q hq with hsent | ⟨a, ha, haq⟩
    · exact .inl (mem_without.mpr ⟨hsent, hqr⟩)
    · exact .inr ⟨a, List.mem_append_left _ ha, haq⟩

theorem callsTraced_reply {s : RehydrationSetup} {w : World} (h : CallsTraced w) {n : Nat}
    {response : Response} {c' : Coordinator} (hc : Reply s w.coordinator n response c') :
    CallsTraced
      { w with
        coordinator := c'
        taken := w.taken ++ (taken? w.coordinator (.event (.answer n response))).toList } := by
  cases hc with
  | absent habs => rw [taken?_of_absent habs]; simpa using h
  | lateFailure hr hn _ | lateDelta hr hn _ | failed hr hn _ | rejected hr hn _ _
  | applied hr hn _ _ =>
      subst hn
      rw [taken?_of_mem hr]
      exact h.take _ _

theorem callsTraced_act {s : RehydrationSetup} {w : World} (h : CallsTraced w) {a : Action}
    (hopen : isClosing a = false) : CallsTraced (w.act s a) := by
  have hm := actOn_cases s w.coordinator a
  unfold World.act
  generalize actOn s w.coordinator a = c' at hm
  cases hm with
  | still hs ht => simpa [hs, ht] using h
  | issued hs ht =>
      rw [submit_eq, ht]
      simpa [CallsTraced] using h
  | expired he => simpa [submitted?, taken?] using callsTraced_expiry h he
  | replied hr => simpa [submitted?] using callsTraced_reply h hr
  | cancelled => cases hopen
  | finished => cases hopen

/-- What is in flight is a call without an answer. -/
theorem inFlight_iff_sent {s : RehydrationSetup} {first : Snapshot} {w : World}
    (hledger : LedgerInv s first w) (h : CallsTraced w) {r : Request} :
    InFlight w r ↔ r ∈ w.coordinator.sent := by
  constructor
  · rintro ⟨hcall, hnone⟩
    rcases h r hcall with hsent | ⟨a, ha, har⟩
    · exact hsent
    · exact absurd har (hnone a ha)
  · exact fun hr => ⟨hledger.sent.mem hr, hledger.unanswered r hr⟩

/-! ## The standing of a whole run -/

/-- The snapshot's number has been given out, or it is the first one. -/
theorem LedgerInv.snapshot_le {s : RehydrationSetup} {first : Snapshot} {w : World}
    (h : LedgerInv s first w) : w.coordinator.snapshot.sequence ≤ w.coordinator.sequence := by
  rw [h.latest]
  cases hlast : w.coordinator.published.getLast? with
  | none =>
      rw [List.getLastD_eq_getLast?, hlast, Option.getD_none, h.zero]
      exact Nat.zero_le _
  | some p =>
      rw [List.getLastD_eq_getLast?, hlast, Option.getD_some]
      exact (h.bounds (h.lawful p (List.mem_of_getLast? hlast)).issued).2

theorem Place.standing {s : RehydrationSetup} {first : Snapshot} {w : World} (h : Place w)
    (hledger : LedgerInv s first w) (htraced : CallsTraced w) : Standing w := by
  have hfly : ∀ r, InFlight w r ↔ r ∈ w.coordinator.sent :=
    fun r => inFlight_iff_sent hledger htraced
  have hsnap := hledger.snapshot_le
  cases h with
  | ended hphase _ hwait hsent hcontext =>
      have hwin : ∀ r, ¬ InWindow w r := fun r hr => by
        rw [InWindow, hwait] at hr; exact absurd hr List.not_mem_nil
      have hout : ¬ ∃ r, InFlight w r ∧ IsLatest w r :=
        fun ⟨r, hr, hl⟩ => hsent r ((hfly r).mp hr) hl
      exact {
        single := by simp [hwait]
        window := fun r hr => absurd hr (hwin r)
        pendingDebounce := by simp [hphase, hwin]
        fetching := by simp only [hphase, reduceCtorEq, false_iff]; exact hout
        idle := by simp only [hphase, true_iff, hwin, false_or]; exact hout
        settled := fun _ => hcontext
        tracked := fun hne => absurd hphase hne
        snapshot := hsnap }
  | @waits r hphase _ hwait hlatest hsent hissued hcontext =>
      have hwin : InWindow w r := by rw [InWindow, hwait]; exact List.mem_singleton.mpr rfl
      have hout : ¬ ∃ r, InFlight w r ∧ IsLatest w r :=
        fun ⟨q, hq, hl⟩ => hsent q ((hfly q).mp hq) hl
      exact {
        single := by simp [hwait]
        window := fun q hq => by
          rw [InWindow, hwait] at hq
          obtain rfl := List.mem_singleton.mp hq
          exact hlatest
        pendingDebounce := by simp only [hphase, true_iff]; exact ⟨r, hwin, hlatest⟩
        fetching := by simp only [hphase, reduceCtorEq, false_iff]; exact hout
        idle := by
          simp only [hphase, reduceCtorEq, false_iff]
          exact fun hnone => hnone ⟨r, .inl hwin, hlatest⟩
        settled := fun heq => by rw [hphase] at heq; cases heq
        tracked := fun _ => by rw [hissued, ← hcontext, ← hlatest]
        snapshot := hsnap }
  | @flies r hphase _ hwait hlatest hmem _ hissued hcontext =>
      have hwin : ∀ q, ¬ InWindow w q := fun q hq => by
        rw [InWindow, hwait] at hq; exact absurd hq List.not_mem_nil
      have hin : InFlight w r := (hfly r).mpr hmem
      exact {
        single := by simp [hwait]
        window := fun q hq => absurd hq (hwin q)
        pendingDebounce := by simp [hphase, hwin]
        fetching := by simp only [hphase, true_iff]; exact ⟨r, hin, hlatest⟩
        idle := by
          simp only [hphase, reduceCtorEq, false_iff]
          exact fun hnone => hnone ⟨r, .inr hin, hlatest⟩
        settled := fun heq => by rw [hphase] at heq; cases heq
        tracked := fun _ => by rw [hissued, ← hcontext, ← hlatest]
        snapshot := hsnap }

/--
**The phase tells where the latest request is.**

Whatever is submitted, and in whatever order windows end and answers arrive: while the coordinator is
not being closed, a waiting request is the latest one and waits alone; the phase is that of the latest
request; the context is the one submitted last while that request is live and the snapshot's when it
is not; and the snapshot is never ahead.
-/
theorem standing_of_open_run {s : RehydrationSetup} {context : Members} {c : Coordinator}
    (h : start s context = .ok c) {as : List Action} (hopen : ∀ a ∈ as, isClosing a = false) :
    Standing ((World.ofCoordinator c).run s as) := by
  have hall : LedgerInv s c.snapshot ((World.ofCoordinator c).run s as)
      ∧ Place ((World.ofCoordinator c).run s as)
      ∧ CallsTraced ((World.ofCoordinator c).run s as) := by
    refine World.run_induction
      (P := fun w => LedgerInv s c.snapshot w ∧ Place w ∧ CallsTraced w)
      (Q := fun a => isClosing a = false)
      ⟨ledgerInv_start h, place_start h, ?_⟩ ?_ hopen
    · obtain ⟨schema, _, rfl⟩ := start_eq h
      exact fun r hr => absurd hr List.not_mem_nil
    · rintro w a ha ⟨hledger, hplace, htraced⟩
      exact ⟨ledgerInv_act hledger a, place_act hledger hplace ha, callsTraced_act htraced ha⟩
  exact hall.2.1.standing hall.1 hall.2.2

/-- The second request is in flight when the first one fails, late, and is then overtaken by a
third. -/
def lateFailure : List Action :=
  [.edit [("country", .str "FR")], .event (.expire 1), .edit [("country", .str "US")],
    .event (.expire 2), .event (.answer 1 (.error .unsendable)),
    .event (.submit [("country", .str "IT")])]

theorem standing_of_late_failure :
    start countrySetup [] = .ok countryStart
      ∧ (∀ a ∈ lateFailure, isClosing a = false)
      ∧ Standing ((World.ofCoordinator countryStart).run countrySetup lateFailure)
      ∧ ((World.ofCoordinator countryStart).run countrySetup lateFailure).coordinator.phase
          = .pendingDebounce
      ∧ ((World.ofCoordinator countryStart).run countrySetup lateFailure).coordinator.sequence
          = 3 := by
  have hopen : ∀ a ∈ lateFailure, isClosing a = false := by
    intro a ha
    simp only [lateFailure, List.mem_cons, List.not_mem_nil, or_false] at ha
    rcases ha with rfl | rfl | rfl | rfl | rfl | rfl <;> rfl
  exact ⟨countryStart_eq, hopen, standing_of_open_run countryStart_eq hopen, by rfl, by rfl⟩

end Formwork.Proofs
