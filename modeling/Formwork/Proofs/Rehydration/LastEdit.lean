import Formwork.Proofs.Rehydration.Ledger

/-!
# The last edit wins

After a last request, numbered `n`, only the requests themselves go on: waitings end
and answers arrive, in any order. This file follows request `n` through three stages
(`Stage`): it waits, it is in flight, it has its answer. In each stage the coordinator
is what it would be without the older requests, but for the live requests themselves
and the count of late deltas. So when nothing is live any more, the answer to `n` has
decided everything else (`settled`).

The balance of numbers carries the stages: the numbers answered since, with those in
flight, are the older ones that were in flight at the submission, and `n` once it has
been called. As those are all different, an answer takes exactly one of them away.
-/

namespace Formwork.Proofs

open Formwork Coordinator

/-- Whether an event comes from the requests themselves, not from outside. -/
def isOwn : RehydrationEvent → Bool
  | .expire _ => true
  | .answer _ _ => true
  | _ => false

/-- How many requests other than `n` have been answered with a delta. -/
def lateDeltas (n : Nat) (taken : List (Nat × Response)) : Nat :=
  taken.countP fun a => a.1 != n && a.2.isOk

/-- The coordinator that drops every live request, submits a last one and gets its answer. -/
def settled (s : RehydrationSetup) (c : Coordinator) (context : Members) (response : Response) :
    Coordinator :=
  ((c.cancel.submit context).expire (c.sequence + 1)).answer s (c.sequence + 1) response

/-- The coordinator stands still at a snapshot and a verdict. -/
structure RestsAt (c : Coordinator) (p : Snapshot) (lastError : Option RehydrationError) : Prop where
  phase : c.phase = .idle
  snapshot : c.snapshot = p
  context : c.context = p.context
  lastError : c.lastError = lastError

/-! ## The last request on its own -/

section Alone

variable (s : RehydrationSetup) (c : Coordinator) (context : Members)

/-- The last request. -/
def lastRequest : Request := ⟨c.sequence + 1, context⟩

/-- The coordinator while the last request waits, without older ones. -/
def awaiting : Coordinator :=
  { c with
    sequence := c.sequence + 1
    context := context
    pending := some (c.sequence + 1)
    waiting := [lastRequest c context]
    sent := []
    phase := .pendingDebounce
    entered := entering c .pendingDebounce }

/-- The coordinator while the last request is in flight, without older ones. -/
def inFlight : Coordinator :=
  { c with
    sequence := c.sequence + 1
    context := context
    pending := none
    waiting := []
    sent := [lastRequest c context]
    calls := c.calls ++ [lastRequest c context]
    phase := .fetching
    entered := entering c .pendingDebounce ++ [.fetching] }

theorem unsettled_cancel : unsettled c.cancel = [] := by
  unfold unsettled
  split <;> rfl

theorem expire_alone :
    (c.cancel.submit context).expire (c.sequence + 1) = inFlight c context := by
  rw [submit_eq, unsettled_cancel]
  simp [Coordinator.expire, Coordinator.cancel, enter_eq, entering, without, inFlight, lastRequest]
  rfl

/-- A failure leaves the snapshot alone and takes the context back to it. -/
theorem settled_error (f : FetchFailure) :
    settled s c context (.error f) =
      { inFlight c context with
        sent := []
        lastError := some (.fetch f)
        context := c.snapshot.context
        phase := .idle
        entered := entering (inFlight c context) .idle } := by
  rw [settled, expire_alone]
  simp [Coordinator.answer, Coordinator.fail, enter_eq, without, inFlight, lastRequest, entering]

theorem settled_rejected {d : RuleDelta} {e : SchemaError}
    (h : (s.form.merge d).compile s.validators = .error e) :
    settled s c context (.ok d) =
      { inFlight c context with
        sent := []
        lastError := some (.apply e)
        context := c.snapshot.context
        phase := .idle
        entered := entering (inFlight c context) .applying ++ [.idle] } := by
  rw [settled, expire_alone]
  simp [Coordinator.answer, Coordinator.apply, h, Coordinator.fail, enter_eq, without, inFlight,
    lastRequest, entering]

/-- A delta that can be applied gives a snapshot of its own. -/
theorem settled_applied {d : RuleDelta} {schema : Schema}
    (h : (s.form.merge d).compile s.validators = .ok schema) :
    settled s c context (.ok d) =
      { inFlight c context with
        sent := []
        snapshot := ⟨c.sequence + 1, context, s.form.merge d, schema, d⟩
        lastError := none
        published := c.published ++ [⟨c.sequence + 1, context, s.form.merge d, schema, d⟩]
        phase := .idle
        entered := entering (inFlight c context) .applying ++ [.idle] } := by
  rw [settled, expire_alone]
  simp [Coordinator.answer, Coordinator.apply, h, enter_eq, without, inFlight, lastRequest,
    entering]

/-- Whatever the answer, the number is the last one and no request is left. -/
theorem settled_quiet (response : Response) :
    (settled s c context response).sequence = c.sequence + 1
      ∧ (settled s c context response).pending = none
      ∧ Quiet (settled s c context response) := by
  cases response with
  | error f => rw [settled_error]; exact ⟨rfl, rfl, rfl, rfl⟩
  | ok d =>
      cases h : (s.form.merge d).compile s.validators with
      | error e => rw [settled_rejected s c context h]; exact ⟨rfl, rfl, rfl, rfl⟩
      | ok schema => rw [settled_applied s c context h]; exact ⟨rfl, rfl, rfl, rfl⟩

end Alone

/-! ## Among older requests -/

section Stages

variable (s : RehydrationSetup) (c : Coordinator) (context : Members)

/-- The coordinator `b` among live requests, with the late deltas since `c` counted. -/
def among (b : Coordinator) (waiting sent : List Request) (taken : List (Nat × Response)) :
    Coordinator :=
  { b with
    waiting := waiting
    sent := sent
    discarded := c.discarded + lateDeltas (c.sequence + 1) taken }

/-- Where nothing is live, only the count is another. -/
theorem among_quiet {b : Coordinator} (hb : Quiet b) (taken : List (Nat × Response)) :
    among c b [] [] taken =
      { b with discarded := c.discarded + lateDeltas (c.sequence + 1) taken } := by
  cases b
  obtain ⟨rfl, rfl⟩ := hb
  rfl

/-- The numbers answered since `c`, and those in flight, are the ones in flight at `c` and those
called since. -/
def Balanced (sent : List Request) (taken : List (Nat × Response)) (called : List Nat) : Prop :=
  (taken.map Prod.fst ++ sent.map Request.sequence).Perm (c.sent.map Request.sequence ++ called)

/-- Where the last request stands, in a coordinator that has taken some answers since. -/
inductive Stage : Coordinator → List (Nat × Response) → Prop where
  | waits {waiting sent : List Request} {taken : List (Nat × Response)} :
      lastRequest c context ∈ waiting →
      (∀ r ∈ waiting, r.sequence = c.sequence + 1 → r = lastRequest c context) →
      (∀ r ∈ sent, r.sequence ≠ c.sequence + 1) →
      Balanced c sent taken [] →
      Stage (among c (awaiting c context) waiting sent taken) taken
  | flies {waiting sent : List Request} {taken : List (Nat × Response)} :
      (∀ r ∈ waiting, r.sequence ≠ c.sequence + 1) →
      lastRequest c context ∈ sent →
      (∀ r ∈ sent, r.sequence = c.sequence + 1 → r = lastRequest c context) →
      Balanced c sent taken [c.sequence + 1] →
      Stage (among c (inFlight c context) waiting sent taken) taken
  | answered {waiting sent : List Request} {taken : List (Nat × Response)} {response : Response} :
      (∀ r ∈ waiting, r.sequence ≠ c.sequence + 1) →
      (∀ r ∈ sent, r.sequence ≠ c.sequence + 1) →
      (c.sequence + 1, response) ∈ taken →
      Balanced c sent taken [c.sequence + 1] →
      Stage (among c (settled s c context response) waiting sent taken) taken

end Stages

section Steps

variable {s : RehydrationSetup} {c : Coordinator} {context : Members}

/-- Taking a request out takes its number out, once. -/
theorem map_without_perm {rs : List Request} {r : Request}
    (hnd : (rs.map Request.sequence).Nodup) (hr : r ∈ rs) :
    (rs.map Request.sequence).Perm
      (r.sequence :: (without r.sequence rs).map Request.sequence) := by
  have hmem : r.sequence ∈ rs.map Request.sequence := List.mem_map_of_mem hr
  have hmap : (without r.sequence rs).map Request.sequence
      = (rs.map Request.sequence).erase r.sequence := by
    rw [hnd.erase_eq_filter, without, List.filter_map]
    rfl
  rw [hmap]
  exact List.perm_cons_erase hmem

/-- An answer moves a number from those in flight to those answered. -/
theorem Balanced.take {sent : List Request} {taken : List (Nat × Response)} {called : List Nat}
    (h : Balanced c sent taken called)
    (hnd : (c.sent.map Request.sequence ++ called).Nodup) {r : Request} (hr : r ∈ sent)
    (response : Response) :
    Balanced c (without r.sequence sent) (taken ++ [(r.sequence, response)]) called := by
  have hsent : (sent.map Request.sequence).Nodup :=
    (h.nodup_iff.mpr hnd).sublist (List.sublist_append_right ..)
  have hmove := (map_without_perm hsent hr).append_left (taken.map Prod.fst)
  refine List.Perm.trans ?_ h
  refine List.Perm.trans (List.Perm.of_eq ?_) hmove.symm
  simp

/-- A call puts a number among those in flight. -/
theorem Balanced.call {sent : List Request} {taken : List (Nat × Response)}
    (h : Balanced c sent taken []) (r : Request) :
    Balanced c (sent ++ [r]) taken [r.sequence] := by
  have hcall := List.Perm.append_right [r.sequence] h
  unfold Balanced
  simpa using hcall

theorem lateDeltas_append (n : Nat) (taken : List (Nat × Response)) (a : Nat × Response) :
    lateDeltas n (taken ++ [a]) = lateDeltas n taken + if a.1 != n && a.2.isOk then 1 else 0 := by
  simp [lateDeltas, List.countP_append, List.countP_singleton]

/-- A failure is not counted. -/
theorem lateDeltas_error (n k : Nat) (taken : List (Nat × Response)) (f : FetchFailure) :
    lateDeltas n (taken ++ [(k, .error f)]) = lateDeltas n taken := by
  simp [lateDeltas_append, Except.isOk, Except.toBool]

/-- A late delta is counted. -/
theorem lateDeltas_ok {n k : Nat} (h : k ≠ n) (taken : List (Nat × Response)) (d : RuleDelta) :
    lateDeltas n (taken ++ [(k, .ok d)]) = lateDeltas n taken + 1 := by
  simp [lateDeltas_append, h, Except.isOk, Except.toBool]

/-- The answer to `n` itself is not counted. -/
theorem lateDeltas_self (n : Nat) (taken : List (Nat × Response)) (response : Response) :
    lateDeltas n (taken ++ [(n, response)]) = lateDeltas n taken := by
  simp [lateDeltas_append]

/-- The end of a waiting leaves the stage, or sends the last request out. -/
theorem stage_expiry {co co' : Coordinator} {taken : List (Nat × Response)} {k : Nat}
    (h : Stage s c context co taken) (he : Expiry co k co') : Stage s c context co' taken := by
  cases h with
  | @waits waiting sent taken hmem huniq hsent hbal =>
      cases he with
      | absent _ => exact .waits hmem huniq hsent hbal
      | lapsed _ _ hold =>
          -- an older request: the last one stays pending
          have hne : c.sequence + 1 ≠ k := fun heq => hold heq.symm
          have hpend : pendingWithout (among c (awaiting c context) waiting sent taken) k
              = some (c.sequence + 1) := if_neg (fun heq => hne (Option.some.inj heq))
          rw [hpend]
          exact .waits (mem_without.mpr ⟨hmem, hne⟩)
            (fun q hq => huniq q (mem_without.mp hq).1) hsent hbal
      | @called r hr hn hlast =>
          have hk : k = c.sequence + 1 := hlast
          obtain rfl : r = lastRequest c context := huniq r hr (hn.trans hk)
          have hpend : pendingWithout (among c (awaiting c context) waiting sent taken) k = none := by
            rw [hk]; exact if_pos rfl
          rw [hpend]
          refine .flies ?_ ?_ ?_ (hbal.call (lastRequest c context))
          · intro q hq
            rw [← hk]
            exact (mem_without.mp hq).2
          · exact List.mem_append_right _ (List.mem_singleton.mpr rfl)
          · intro q hq hqn
            rcases List.mem_append.mp hq with hq | hq
            · exact absurd hqn (hsent q hq)
            · exact List.mem_singleton.mp hq
  | @flies waiting sent taken hwait hmem huniq hbal =>
      cases he with
      | absent _ => exact .flies hwait hmem huniq hbal
      | lapsed _ _ _ =>
          exact .flies
            (fun q hq => hwait q (mem_without.mp hq).1) hmem huniq hbal
      | called hr hn hlast => exact absurd (hn.trans hlast) (hwait _ hr)
  | @answered waiting sent taken response hwait hsent hans hbal =>
      have hquiet := settled_quiet s c context response
      cases he with
      | absent _ => exact .answered hwait hsent hans hbal
      | lapsed _ _ _ =>
          have hpend : pendingWithout (among c (settled s c context response) waiting sent taken) k
              = (settled s c context response).pending := by
            refine if_neg ?_
            show (settled s c context response).pending ≠ some k
            rw [hquiet.2.1]
            simp
          rw [hpend]
          exact .answered
            (fun q hq => hwait q (mem_without.mp hq).1) hsent hans hbal
      | called hr hn hlast => exact absurd ((hn.trans hlast).trans hquiet.1) (hwait _ hr)

/-- The numbers of what is in flight and of the last request are all different. -/
def FreshAfter (c : Coordinator) : Prop :=
  (c.sent.map Request.sequence ++ [c.sequence + 1]).Nodup

theorem Stage.sequence_eq {co : Coordinator} {taken : List (Nat × Response)}
    (h : Stage s c context co taken) : co.sequence = c.sequence + 1 := by
  cases h with
  | waits _ _ _ _ => rfl
  | flies _ _ _ _ => rfl
  | answered _ _ _ _ => exact (settled_quiet s c context _).1

theorem Stage.discarded_eq {co : Coordinator} {taken : List (Nat × Response)}
    (h : Stage s c context co taken) :
    co.discarded = c.discarded + lateDeltas (c.sequence + 1) taken := by
  cases h <;> rfl

/-- An answer to an older request leaves the stage. -/
theorem Stage.late (hfresh : FreshAfter c) {co : Coordinator} {taken : List (Nat × Response)}
    (h : Stage s c context co taken) {r : Request} (hr : r ∈ co.sent)
    (hold : r.sequence ≠ c.sequence + 1) (response : Response) :
    Stage s c context
      { co with
        sent := without r.sequence co.sent
        discarded :=
          c.discarded + lateDeltas (c.sequence + 1) (taken ++ [(r.sequence, response)]) }
      (taken ++ [(r.sequence, response)]) := by
  cases h with
  | waits hmem huniq hsent hbal =>
      have hfresh' : (c.sent.map Request.sequence ++ []).Nodup :=
        hfresh.sublist (List.Sublist.append_left (List.nil_sublist _) _)
      exact .waits hmem huniq (fun q hq => hsent q (mem_without.mp hq).1)
        (hbal.take hfresh' hr response)
  | flies hwait hmem huniq hbal =>
      exact .flies hwait (mem_without.mpr ⟨hmem, fun heq => hold heq.symm⟩)
        (fun q hq => huniq q (mem_without.mp hq).1) (hbal.take hfresh hr response)
  | answered hwait hsent hans hbal =>
      exact .answered hwait (fun q hq => hsent q (mem_without.mp hq).1)
        (List.mem_append_left _ hans) (hbal.take hfresh hr response)

/-- The last request is answered in flight only, and its answer decides. -/
theorem Stage.decided (hfresh : FreshAfter c) {co : Coordinator} {taken : List (Nat × Response)}
    (h : Stage s c context co taken) {r : Request} (hr : r ∈ co.sent)
    (hn : r.sequence = c.sequence + 1) (response : Response) :
    ∃ waiting sent, co = among c (inFlight c context) waiting sent taken
      ∧ r = lastRequest c context
      ∧ Stage s c context
          (among c (settled s c context response) waiting (without (c.sequence + 1) sent) taken)
          (taken ++ [(c.sequence + 1, response)]) := by
  cases h with
  | waits _ _ hsent _ => exact absurd hn (hsent r hr)
  | answered _ hsent _ _ => exact absurd hn (hsent r hr)
  | @flies waiting sent _ hwait hmem huniq hbal =>
      refine ⟨waiting, sent, rfl, huniq r hr hn, ?_⟩
      have hcount := lateDeltas_self (c.sequence + 1) taken response
      unfold among
      rw [← hcount]
      exact .answered hwait (fun q hq => (mem_without.mp hq).2)
        (List.mem_append_right _ (List.mem_singleton.mpr rfl)) (hbal.take hfresh hmem response)

/-- **An answer leaves the stage, or it is the answer to the last request and decides.** -/
theorem stage_reply (hfresh : FreshAfter c) {co co' : Coordinator}
    {taken : List (Nat × Response)} {k : Nat} {response : Response}
    (h : Stage s c context co taken) (hr : Reply s co k response co') :
    Stage s c context co' (taken ++ (taken? co (.event (.answer k response))).toList) := by
  have hseq := h.sequence_eq
  have hdisc := h.discarded_eq
  cases hr with
  | absent habs => rw [taken?_of_absent habs]; simpa using h
  | @lateFailure r f hq hk hold =>
      subst hk
      rw [taken?_of_mem hq]
      have hlate := h.late hfresh hq (hseq ▸ hold) (.error f)
      rw [lateDeltas_error, ← hdisc] at hlate
      exact hlate
  | @lateDelta r d hq hk hold =>
      subst hk
      rw [taken?_of_mem hq]
      have hlate := h.late hfresh hq (hseq ▸ hold) (.ok d)
      rw [lateDeltas_ok (hseq ▸ hold), ← Nat.add_assoc, ← hdisc] at hlate
      exact hlate
  | @failed r f hq hk hlast =>
      obtain ⟨waiting, sent, rfl, rfl, hdec⟩ :=
        h.decided hfresh hq (hk.trans (hlast.trans hseq)) (.error f)
      subst hk
      rw [taken?_of_mem hq]
      rw [settled_error] at hdec
      exact hdec
  | @rejected r d e hq hk hlast hcomp =>
      obtain ⟨waiting, sent, rfl, rfl, hdec⟩ :=
        h.decided hfresh hq (hk.trans (hlast.trans hseq)) (.ok d)
      subst hk
      rw [taken?_of_mem hq]
      rw [settled_rejected s c context hcomp] at hdec
      exact hdec
  | @applied r d schema hq hk hlast hcomp =>
      obtain ⟨waiting, sent, rfl, rfl, hdec⟩ :=
        h.decided hfresh hq (hk.trans (hlast.trans hseq)) (.ok d)
      subst hk
      rw [taken?_of_mem hq]
      rw [settled_applied s c context hcomp] at hdec
      exact hdec

end Steps

/-! ## From the submission to the last answer -/

/-- The world after a last submission and some events since. -/
def after (s : RehydrationSetup) (c : Coordinator) (context : Members)
    (es : List RehydrationEvent) : World :=
  (World.ofCoordinator (c.submit context)).run s (es.map .event)

/-- In a reachable coordinator no live request has a number beyond the latest, and those in flight
have different numbers. -/
theorem live_bounds {s : RehydrationSetup} {c : Coordinator} (h : Reachable s c) :
    (∀ r ∈ c.waiting, r.sequence ≤ c.sequence) ∧ (∀ r ∈ c.sent, r.sequence ≤ c.sequence)
      ∧ c.sent.Pairwise (·.sequence < ·.sequence) := by
  obtain ⟨context, c₀, as, hstart, rfl⟩ := h
  have hinv := ledgerInv_run hstart as
  refine ⟨fun r hr => (hinv.bounds (hinv.waiting.mem hr)).2, fun r hr => ?_, hinv.sentIncrease⟩
  exact (hinv.bounds (hinv.called r (hinv.sent.mem hr))).2

theorem freshAfter_reachable {s : RehydrationSetup} {c : Coordinator} (h : Reachable s c) :
    FreshAfter c := by
  obtain ⟨-, hsent, hinc⟩ := live_bounds h
  refine List.nodup_append.mpr ⟨?_, List.pairwise_singleton _ _, ?_⟩
  · exact List.pairwise_map.mpr (hinc.imp (fun hlt => Nat.ne_of_lt hlt))
  · intro m hm n hn
    obtain ⟨r, hr, rfl⟩ := List.mem_map.mp hm
    obtain rfl := List.mem_singleton.mp hn
    have := hsent r hr
    omega

/-- The last request begins by waiting. -/
theorem stage_submit {s : RehydrationSetup} {c : Coordinator} (h : Reachable s c)
    (context : Members) : Stage s c context (c.submit context) [] := by
  obtain ⟨hwait, hsent, -⟩ := live_bounds h
  have hstage : Stage s c context
      (among c (awaiting c context) (unsettled c ++ [lastRequest c context]) c.sent []) [] := by
    refine .waits ?_ ?_ ?_ ?_
    · exact List.mem_append_right _ (List.mem_singleton.mpr rfl)
    · intro r hr hn
      rcases List.mem_append.mp hr with hr | hr
      · have := hwait r ((unsettled_sublist c).mem hr)
        omega
      · exact List.mem_singleton.mp hr
    · intro r hr
      have := hsent r hr
      omega
    · unfold Balanced
      simp
  rw [submit_eq]
  exact hstage

/-- The last request is in one of its stages after any events of the requests themselves. -/
theorem stage_after {s : RehydrationSetup} {c : Coordinator} (h : Reachable s c)
    (context : Members) {es : List RehydrationEvent} (hown : ∀ e ∈ es, isOwn e = true) :
    Stage s c context (after s c context es).coordinator (after s c context es).taken := by
  have hfresh := freshAfter_reachable h
  refine World.run_induction
    (P := fun w => Stage s c context w.coordinator w.taken)
    (Q := fun a => ∃ e, a = .event e ∧ isOwn e = true) (stage_submit h context) ?_ ?_
  · rintro w _ ⟨e, rfl, he⟩ hw
    cases e with
    | expire n => simpa [World.act, actOn, Coordinator.step, taken?] using
        stage_expiry hw (expire_cases w.coordinator n)
    | answer n response => exact stage_reply hfresh hw (answer_cases s w.coordinator n response)
    | submit _ => cases he
    | cancel => cases he
    | finish => cases he
  · intro a ha
    obtain ⟨e, he, rfl⟩ := List.mem_map.mp ha
    exact ⟨e, rfl, hown e he⟩

/--
**The last edit wins, whatever the order of what is still to come.**

Once no request is live, the last request has got an answer, and every request that was in flight at
its submission has got one. The coordinator is then as if the older requests had been dropped before
the submission, but for the count of late answers, which has grown by the older requests that were
answered with a delta. So it rests at the new snapshot when the answer to the last request could be
applied, and at the snapshot before the submission, with the error, when it could not.
-/
theorem last_edit_wins {s : RehydrationSetup} {c : Coordinator} (hreach : Reachable s c)
    (context : Members) (es : List RehydrationEvent) (hown : ∀ e ∈ es, isOwn e = true)
    (hquiet : Quiet (after s c context es).coordinator) :
    ((after s c context es).taken.map Prod.fst).Nodup
      ∧ ((after s c context es).taken.map Prod.fst).Perm
          (c.sent.map Request.sequence ++ [c.sequence + 1])
      ∧ ∃ response, (c.sequence + 1, response) ∈ (after s c context es).taken
        ∧ (after s c context es).coordinator =
            { settled s c context response with
              discarded := c.discarded
                + lateDeltas (c.sequence + 1) (after s c context es).taken }
        ∧ (∀ d schema, response = .ok d → (s.form.merge d).compile s.validators = .ok schema →
            RestsAt (after s c context es).coordinator
              ⟨c.sequence + 1, context, s.form.merge d, schema, d⟩ none)
        ∧ (∀ d e, response = .ok d → (s.form.merge d).compile s.validators = .error e →
            RestsAt (after s c context es).coordinator c.snapshot (some (.apply e)))
        ∧ (∀ f, response = .error f →
            RestsAt (after s c context es).coordinator c.snapshot (some (.fetch f))) := by
  have hstage := stage_after hreach context hown
  have hfresh := freshAfter_reachable hreach
  generalize (after s c context es).taken = taken at hstage ⊢
  generalize (after s c context es).coordinator = co at hstage hquiet ⊢
  obtain ⟨hw, hs⟩ := hquiet
  cases hstage with
  | waits hmem _ _ _ => subst hw; exact absurd hmem List.not_mem_nil
  | flies _ hmem _ _ => subst hs; exact absurd hmem List.not_mem_nil
  | @answered waiting sent _ response _ _ hans hbal =>
      subst hw; subst hs
      have hperm : (taken.map Prod.fst).Perm (c.sent.map Request.sequence ++ [c.sequence + 1]) := by
        simpa [Balanced] using hbal
      have hsettled := among_quiet c (settled_quiet s c context response).2.2 taken
      refine ⟨hperm.nodup_iff.mpr hfresh, hperm, response, hans, hsettled, ?_, ?_, ?_⟩
      · rintro d schema rfl hc
        rw [settled_applied s c context hc]
        exact ⟨rfl, rfl, rfl, rfl⟩
      · rintro d e rfl hc
        rw [settled_rejected s c context hc]
        exact ⟨rfl, rfl, rfl, rfl⟩
      · rintro f rfl
        rw [settled_error]
        exact ⟨rfl, rfl, rfl, rfl⟩

/-- The coordinator of the country form while the request for France is in flight. -/
def askedFrance : Coordinator :=
  ((World.ofCoordinator countryStart).run countrySetup
    [.edit [("country", .str "FR")], .event (.expire 1)]).coordinator

/-- The request for France is answered last, and late. -/
def franceLast : List RehydrationEvent :=
  [.expire 2, .answer 2 (.ok countryRequired), .answer 1 (.ok .empty)]

theorem last_edit_wins_france_late :
    Reachable countrySetup askedFrance
      ∧ askedFrance.sent.map Request.sequence = [1]
      ∧ Quiet (after countrySetup askedFrance [("country", .str "US")] franceLast).coordinator
      ∧ ∃ response,
          (2, response) ∈ (after countrySetup askedFrance [("country", .str "US")] franceLast).taken
          ∧ (after countrySetup askedFrance [("country", .str "US")] franceLast).coordinator =
            { settled countrySetup askedFrance [("country", .str "US")] response with
              discarded := 1 } := by
  have hreach : Reachable countrySetup askedFrance := ⟨[], countryStart, _, countryStart_eq, rfl⟩
  have hquiet :
      Quiet (after countrySetup askedFrance [("country", .str "US")] franceLast).coordinator :=
    ⟨by rfl, by rfl⟩
  have hcount : askedFrance.discarded + lateDeltas (askedFrance.sequence + 1)
      (after countrySetup askedFrance [("country", .str "US")] franceLast).taken = 1 := by rfl
  obtain ⟨-, -, response, hans, heq, -⟩ :=
    last_edit_wins hreach [("country", .str "US")] franceLast (by decide) hquiet
  rw [hcount] at heq
  exact ⟨hreach, by rfl, hquiet, response, hans, heq⟩

end Formwork.Proofs
