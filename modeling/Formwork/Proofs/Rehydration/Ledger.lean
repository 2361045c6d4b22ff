import Formwork.Proofs.Rehydration.World

/-!
# Only the latest answer is published

Requests may overtake one another at every point: while they wait, while they are
in flight, and when their answers arrive. Whatever the order, the record of a world
accounts for everything the coordinator has sent out and published:

* numbers are given out one by one, and the provider is called at most once for each;
* a call is answered at most once, and its answer alone makes the snapshot of its number;
* a snapshot is published for the latest number only, so the numbers published increase.

What carries the last point is that a request in flight has no answer on record yet
(`LedgerInv.unanswered`), while every published number has one.
-/

namespace Formwork.Proofs

open Formwork Coordinator

/-- A snapshot is the form under the delta that answered the call of its number, made with the
context submitted under that number. -/
structure Lawful (s : RehydrationSetup) (w : World) (p : Snapshot) : Prop where
  /-- Its context was submitted under its number. -/
  issued : ⟨p.sequence, p.context⟩ ∈ w.issued
  /-- The provider was called with that context. -/
  called : ⟨p.sequence, p.context⟩ ∈ w.coordinator.calls
  /-- The call was answered with its delta. -/
  answered : (p.sequence, .ok p.delta) ∈ w.taken
  form : p.form = s.form.merge p.delta
  schema : p.form.compile s.validators = .ok p.schema

theorem Lawful.mono {s : RehydrationSetup} {w w' : World} {p : Snapshot} (h : Lawful s w p)
    (hi : w.issued ⊆ w'.issued) (hc : w.coordinator.calls ⊆ w'.coordinator.calls)
    (ht : w.taken ⊆ w'.taken) : Lawful s w' p :=
  ⟨hi h.issued, hc h.called, ht h.answered, h.form, h.schema⟩

/-- What the record of a world accounts for, since the snapshot `first`. -/
structure Account (s : RehydrationSetup) (first : Snapshot) (w : World) : Prop where
  /-- Requests are numbered one by one. -/
  numbered : w.issued.map Request.sequence = List.range' 1 w.coordinator.sequence
  /-- The provider is called with what was submitted. -/
  called : ∀ r ∈ w.coordinator.calls, r ∈ w.issued
  /-- Calls are made in the order of their numbers, once for each at most. -/
  callsIncrease : w.coordinator.calls.Pairwise (·.sequence < ·.sequence)
  /-- Only calls are answered. -/
  answered : ∀ a ∈ w.taken, ∃ r ∈ w.coordinator.calls, r.sequence = a.1
  /-- A call is answered once at most. -/
  answeredOnce : (w.taken.map Prod.fst).Nodup
  /-- Every snapshot published is made from its own answer. -/
  lawful : ∀ p ∈ w.coordinator.published, Lawful s w p
  /-- The numbers published increase. -/
  publishedIncrease : (first :: w.coordinator.published).Pairwise (·.sequence < ·.sequence)
  /-- The snapshot is the last one published. -/
  latest : w.coordinator.snapshot = w.coordinator.published.getLastD first

/-- The account, and where the live requests stand in it. -/
structure LedgerInv (s : RehydrationSetup) (first : Snapshot) (w : World) : Prop
    extends Account s first w where
  /-- The first snapshot stands before every request. -/
  zero : first.sequence = 0
  /-- Waiting requests were submitted. -/
  waiting : w.coordinator.waiting.Sublist w.issued
  /-- The provider has not been called for a waiting request. -/
  uncalled : ∀ r ∈ w.coordinator.waiting, ∀ q ∈ w.coordinator.calls, q.sequence ≠ r.sequence
  /-- A request in flight is a call. -/
  sent : w.coordinator.sent.Sublist w.coordinator.calls
  /-- A request in flight has no answer on record. -/
  unanswered : ∀ r ∈ w.coordinator.sent, ∀ a ∈ w.taken, a.1 ≠ r.sequence

section Consequences

variable {s : RehydrationSetup} {first : Snapshot} {w : World}

/-- Numbers on record lie between one and the latest. -/
theorem Account.bounds (h : Account s first w) {r : Request} (hr : r ∈ w.issued) :
    1 ≤ r.sequence ∧ r.sequence ≤ w.coordinator.sequence := by
  have hmem : r.sequence ∈ w.issued.map Request.sequence := List.mem_map_of_mem hr
  rw [h.numbered, List.mem_range'_1] at hmem
  omega

/-- Requests in flight have different numbers. -/
theorem LedgerInv.sentIncrease (h : LedgerInv s first w) :
    w.coordinator.sent.Pairwise (·.sequence < ·.sequence) :=
  h.callsIncrease.sublist h.sent

/-- What has been published was published under a number that is not in flight. -/
theorem LedgerInv.published_ne_sent (h : LedgerInv s first w) {p : Snapshot} {r : Request}
    (hp : p ∈ w.coordinator.published) (hr : r ∈ w.coordinator.sent) :
    p.sequence ≠ r.sequence :=
  h.unanswered r hr _ (h.lawful p hp).answered

end Consequences

/-! ## The start -/

theorem Field.merge_empty (f : Field) : f.merge .empty = f := rfl

theorem Block.merge_empty (b : Block) : b.merge .empty = b := by
  have hf : b.fields.map (fun f => f.merge .empty) = b.fields := List.map_id _
  show { b with fields := b.fields.map (fun f => f.merge .empty), status := b.status } = b
  rw [hf]

/-- The delta that changes nothing leaves the form as it is. -/
theorem Form.merge_empty (f : Form) : f.merge .empty = f := by
  have hb : f.blocks.map (fun b => b.merge .empty) = f.blocks := by
    rw [funext Block.merge_empty]; exact List.map_id _
  show { f with blocks := f.blocks.map (fun b => b.merge .empty) } = f
  rw [hb]

/-- The coordinator at the start, in full. -/
theorem start_eq {s : RehydrationSetup} {context : Members} {c : Coordinator}
    (h : start s context = .ok c) :
    ∃ schema, s.form.compile s.validators = .ok schema ∧
      c = { context := context, sequence := 0, phase := .idle, pending := none, waiting := [],
            sent := [], lastError := none, discarded := 0,
            snapshot := ⟨0, context, s.form, schema, .empty⟩,
            entered := [], calls := [], published := [] } := by
  unfold start at h
  cases hc : s.form.compile s.validators with
  | error e => rw [hc] at h; cases h
  | ok schema => rw [hc] at h; cases h; exact ⟨schema, rfl, rfl⟩

theorem ledgerInv_start {s : RehydrationSetup} {context : Members} {c : Coordinator}
    (h : start s context = .ok c) : LedgerInv s c.snapshot (.ofCoordinator c) := by
  obtain ⟨schema, _, rfl⟩ := start_eq h
  constructor
  · constructor <;> simp [World.ofCoordinator]
  all_goals simp [World.ofCoordinator]

/-! ## The steps -/

section Steps

variable {s : RehydrationSetup} {first : Snapshot} {w : World}

/-- The account says nothing of the phase, the context, the error, the count of late answers and
what is pending. -/
theorem ledgerInv_frame (h : LedgerInv s first w) (context : Members) (phase : Phase)
    (pending : Option Nat) (lastError : Option RehydrationError) (discarded : Nat)
    (entered : List Phase) :
    LedgerInv s first
      { w with
        coordinator :=
          { w.coordinator with
            context := context
            phase := phase
            pending := pending
            lastError := lastError
            discarded := discarded
            entered := entered } } :=
  { h with lawful := fun p hp => { h.lawful p hp with } }

theorem ledgerInv_submit (h : LedgerInv s first w) (context : Members) :
    LedgerInv s first
      { w with
        coordinator := w.coordinator.submit context
        issued := w.issued ++ [⟨w.coordinator.sequence + 1, context⟩] } := by
  rw [submit_eq]
  have hsub : w.issued ⊆ w.issued ++ [⟨w.coordinator.sequence + 1, context⟩] :=
    List.subset_append_left ..
  exact {
    numbered := by
      simp only [List.map_append, List.map_cons, List.map_nil, h.numbered]
      rw [List.range'_1_concat, Nat.add_comm 1]
    called := fun r hr => hsub (h.called r hr)
    callsIncrease := h.callsIncrease
    answered := h.answered
    answeredOnce := h.answeredOnce
    lawful := fun p hp => (h.lawful p hp).mono hsub (List.Subset.refl _) (List.Subset.refl _)
    publishedIncrease := h.publishedIncrease
    latest := h.latest
    zero := h.zero
    waiting := ((unsettled_sublist _).trans h.waiting).append (List.Sublist.refl _)
    uncalled := by
      intro r hr q hq
      rcases List.mem_append.mp hr with hr | hr
      · exact h.uncalled r ((unsettled_sublist _).mem hr) q hq
      · -- the new number is beyond every call so far
        obtain rfl := List.mem_singleton.mp hr
        have := (h.bounds (h.called q hq)).2
        show q.sequence ≠ w.coordinator.sequence + 1
        omega
    sent := h.sent
    unanswered := h.unanswered }

theorem ledgerInv_expiry (h : LedgerInv s first w) {n : Nat} {c' : Coordinator}
    (hc : Expiry w.coordinator n c') : LedgerInv s first { w with coordinator := c' } := by
  have hwait : (without n w.coordinator.waiting).Sublist w.coordinator.waiting :=
    List.filter_sublist
  cases hc with
  | absent _ => exact h
  | lapsed _ _ _ =>
      exact { h with
        lawful := fun p hp => { h.lawful p hp with }
        waiting := hwait.trans h.waiting
        uncalled := fun r hr => h.uncalled r (hwait.mem hr) }
  | @called r hr hn hlast =>
      have hsub : w.coordinator.calls ⊆ w.coordinator.calls ++ [r] := List.subset_append_left ..
      exact {
        numbered := h.numbered
        called := by
          intro q hq
          rcases List.mem_append.mp hq with hq | hq
          · exact h.called q hq
          · obtain rfl := List.mem_singleton.mp hq
            exact h.waiting.mem hr
        callsIncrease := by
          refine List.pairwise_append.mpr ⟨h.callsIncrease, List.pairwise_singleton _ _, ?_⟩
          intro q hq q' hq'
          obtain rfl := List.mem_singleton.mp hq'
          have hle := (h.bounds (h.called q hq)).2
          have hne := h.uncalled q' hr q hq
          omega
        answered := fun a ha =>
          let ⟨q, hq, hqa⟩ := h.answered a ha
          ⟨q, hsub hq, hqa⟩
        answeredOnce := h.answeredOnce
        lawful := fun p hp => (h.lawful p hp).mono (List.Subset.refl _) hsub (List.Subset.refl _)
        publishedIncrease := h.publishedIncrease
        latest := h.latest
        zero := h.zero
        waiting := hwait.trans h.waiting
        uncalled := by
          intro q hq q' hq'
          obtain ⟨hq, hne⟩ := mem_without.mp hq
          rcases List.mem_append.mp hq' with hq' | hq'
          · exact h.uncalled q hq q' hq'
          · obtain rfl := List.mem_singleton.mp hq'
            omega
        sent := h.sent.append (List.Sublist.refl _)
        unanswered := by
          intro q hq a ha
          rcases List.mem_append.mp hq with hq | hq
          · exact h.unanswered q hq a ha
          · -- an answer on record belongs to an earlier call
            obtain rfl := List.mem_singleton.mp hq
            obtain ⟨q', hq', hqa⟩ := h.answered a ha
            have := h.uncalled q hr q' hq'
            omega }

/-- Any answer to a request in flight goes on record, and the request is in flight no more. -/
theorem ledgerInv_take (h : LedgerInv s first w) {r : Request} (hr : r ∈ w.coordinator.sent)
    (response : Response) :
    LedgerInv s first
      { w with
        coordinator := { w.coordinator with sent := without r.sequence w.coordinator.sent }
        taken := w.taken ++ [(r.sequence, response)] } := by
  have hsub : w.taken ⊆ w.taken ++ [(r.sequence, response)] := List.subset_append_left ..
  have hcall : r ∈ w.coordinator.calls := h.sent.mem hr
  exact { h with
    answered := by
      intro a ha
      rcases List.mem_append.mp ha with ha | ha
      · exact h.answered a ha
      · obtain rfl := List.mem_singleton.mp ha
        exact ⟨r, hcall, rfl⟩
    answeredOnce := by
      rw [List.map_append, List.map_cons, List.map_nil]
      refine List.nodup_append.mpr ⟨h.answeredOnce, List.pairwise_singleton _ _, ?_⟩
      intro n hn m hm
      obtain ⟨a, ha, rfl⟩ := List.mem_map.mp hn
      obtain rfl := List.mem_singleton.mp hm
      exact h.unanswered r hr a ha
    lawful := fun p hp => (h.lawful p hp).mono (List.Subset.refl _) (List.Subset.refl _) hsub
    sent := List.filter_sublist.trans h.sent
    unanswered := by
      intro q hq a ha
      obtain ⟨hq, hne⟩ := mem_without.mp hq
      rcases List.mem_append.mp ha with ha | ha
      · exact h.unanswered q hq a ha
      · obtain rfl := List.mem_singleton.mp ha
        exact fun heq => hne heq.symm }

theorem taken?_of_mem {c : Coordinator} {r : Request} (hr : r ∈ c.sent) (response : Response) :
    taken? c (.event (.answer r.sequence response)) = some (r.sequence, response) := by
  simp only [taken?]
  rw [if_pos]
  exact List.any_eq_true.mpr ⟨r, hr, beq_self_eq_true _⟩

theorem taken?_of_absent {c : Coordinator} {n : Nat} (h : ∀ r ∈ c.sent, r.sequence ≠ n)
    (response : Response) : taken? c (.event (.answer n response)) = none := by
  simp only [taken?]
  rw [if_neg]
  intro hany
  obtain ⟨r, hr, hn⟩ := List.any_eq_true.mp hany
  exact h r hr (by simpa using hn)

theorem ledgerInv_reply (h : LedgerInv s first w) {n : Nat} {response : Response}
    {c' : Coordinator} (hc : Reply s w.coordinator n response c') :
    LedgerInv s first
      { w with
        coordinator := c'
        taken := w.taken ++ (taken? w.coordinator (.event (.answer n response))).toList } := by
  cases hc with
  | absent habs =>
      rw [taken?_of_absent habs]
      simpa using h
  | lateFailure hr hn _ | lateDelta hr hn _ | failed hr hn _ | rejected hr hn _ _ =>
      -- nothing is published: the answer goes on record, and that is all
      subst hn
      rw [taken?_of_mem hr]
      exact ledgerInv_frame (ledgerInv_take h hr _) _ _ _ _ _ _
  | @applied r d schema hr hn hlast hcomp =>
      subst hn
      rw [taken?_of_mem hr]
      have ht := ledgerInv_take h hr (.ok d)
      have hcall : r ∈ w.coordinator.calls := h.sent.mem hr
      exact { ht with
        lawful := by
          intro p hp
          rcases List.mem_append.mp hp with hp | hp
          · exact { ht.lawful p hp with }
          · obtain rfl := List.mem_singleton.mp hp
            exact ⟨h.called r hcall, hcall, List.mem_append_right _ (List.mem_singleton.mpr rfl),
              rfl, hcomp⟩
        publishedIncrease := by
          rw [← List.cons_append]
          refine List.pairwise_append.mpr
            ⟨h.publishedIncrease, List.pairwise_singleton _ _, ?_⟩
          intro p hp q hq
          obtain rfl := List.mem_singleton.mp hq
          show p.sequence < r.sequence
          rcases List.mem_cons.mp hp with rfl | hp
          · have := (h.bounds (h.called r hcall)).1
            have := h.zero
            omega
          · have hle := (h.bounds (h.lawful p hp).issued).2
            have hne := h.published_ne_sent hp hr
            simp only at hle
            omega
        latest := by
          show _ = List.getLastD (_ ++ [_]) _
          simp }

/-- **The account is kept by every action.** -/
theorem ledgerInv_act (h : LedgerInv s first w) (a : Action) : LedgerInv s first (w.act s a) := by
  have hm := actOn_cases s w.coordinator a
  unfold World.act
  generalize actOn s w.coordinator a = c' at hm
  cases hm with
  | still hs ht => simpa [hs, ht] using h
  | issued hs ht => simpa [hs, ht] using ledgerInv_submit h _
  | expired he => simpa [submitted?, taken?] using ledgerInv_expiry h he
  | replied hr => simpa [submitted?] using ledgerInv_reply h hr
  | cancelled =>
      have hc : LedgerInv s first
          { w with coordinator := { w.coordinator with waiting := [], sent := [] } } :=
        { h with
          lawful := fun p hp => { h.lawful p hp with }
          waiting := List.nil_sublist _
          uncalled := fun _ hr => absurd hr List.not_mem_nil
          sent := List.nil_sublist _
          unanswered := fun _ hr => absurd hr List.not_mem_nil }
      simpa [submitted?, taken?] using hc
  | finished => simpa [submitted?, taken?] using ledgerInv_frame h _ _ _ _ _ _

end Steps

/-- **The account holds at the end of every run.** -/
theorem ledgerInv_run {s : RehydrationSetup} {context : Members} {c : Coordinator}
    (h : start s context = .ok c) (as : List Action) :
    LedgerInv s c.snapshot ((World.ofCoordinator c).run s as) :=
  World.run_induction (Q := fun _ => True) (ledgerInv_start h)
    (fun _ a _ hw => ledgerInv_act hw a) (fun _ _ => trivial)

/-! ## The moment of publishing and of calling -/

/-- From `c` to `c'` at most one snapshot was published: under the latest number, and as a whole. -/
def PublishesLatest (c c' : Coordinator) : Prop :=
  (c'.published = c.published ∧ c'.snapshot = c.snapshot)
    ∨ ∃ p : Snapshot, p.sequence = c.sequence ∧ c'.sequence = c.sequence
      ∧ c'.published = c.published ++ [p] ∧ c'.snapshot = p

/-- From `c` to `c'` the provider was called at most once: when the waiting of the latest request
ended. -/
def CallsLatest (c : Coordinator) (a : Action) (c' : Coordinator) : Prop :=
  c'.calls = c.calls
    ∨ ∃ r ∈ c.waiting, a = .event (.expire r.sequence) ∧ r.sequence = c.sequence
      ∧ c'.calls = c.calls ++ [r]

theorem publishesLatest_act (s : RehydrationSetup) (c : Coordinator) (a : Action) :
    PublishesLatest c (actOn s c a) := by
  have hm := actOn_cases s c a
  generalize actOn s c a = c' at hm
  cases hm with
  | issued _ _ => rw [submit_eq]; exact .inl ⟨rfl, rfl⟩
  | expired he => cases he <;> exact .inl ⟨rfl, rfl⟩
  | replied hr =>
      cases hr with
      | applied _ hn hlast _ => exact .inr ⟨_, hn.trans hlast, rfl, rfl, rfl⟩
      | _ => exact .inl ⟨rfl, rfl⟩
  | _ => exact .inl ⟨rfl, rfl⟩

theorem callsLatest_act (s : RehydrationSetup) (c : Coordinator) (a : Action) :
    CallsLatest c a (actOn s c a) := by
  have hm := actOn_cases s c a
  generalize actOn s c a = c' at hm
  cases hm with
  | issued _ _ => rw [submit_eq]; exact .inl rfl
  | expired he =>
      cases he with
      | called hr hn hlast => exact .inr ⟨_, hr, by rw [hn], hn.trans hlast, rfl⟩
      | _ => exact .inl rfl
  | replied hr => cases hr <;> exact .inl rfl
  | _ => exact .inl rfl

/-! ## The account of a whole run -/

/--
**Only answers to the latest request are published.**

The snapshot at the start is the form under the empty delta. From there on, whatever is done to the
coordinator and in whatever order, every number, call, answer and snapshot is accounted for; and
every single action publishes at most one snapshot, under the latest number, and calls the provider
at most once, for the latest request at the end of its waiting.
-/
theorem published_latest {s : RehydrationSetup} {context : Members} {c : Coordinator}
    (h : start s context = .ok c) :
    (c.snapshot.sequence = 0 ∧ c.snapshot.context = context ∧ c.snapshot.delta = .empty
        ∧ c.snapshot.form = s.form.merge .empty
        ∧ c.snapshot.form.compile s.validators = .ok c.snapshot.schema)
      ∧ ∀ as : List Action,
          Account s c.snapshot ((World.ofCoordinator c).run s as)
            ∧ ∀ a : Action,
                PublishesLatest ((World.ofCoordinator c).run s as).coordinator
                    (((World.ofCoordinator c).run s as).act s a).coordinator
                  ∧ CallsLatest ((World.ofCoordinator c).run s as).coordinator a
                    (((World.ofCoordinator c).run s as).act s a).coordinator := by
  refine ⟨?_, fun as => ⟨(ledgerInv_run h as).toAccount, fun a => ⟨?_, ?_⟩⟩⟩
  · obtain ⟨schema, hc, rfl⟩ := start_eq h
    exact ⟨rfl, rfl, rfl, (Form.merge_empty _).symm, hc⟩
  · exact publishesLatest_act s _ a
  · exact callsLatest_act s _ a

/-- A first request is overtaken while it is in flight; its answer comes before the second one is
even sent, and only the answer to the second is published. -/
def overtaking : List Action :=
  [.edit [("country", .str "FR")], .event (.expire 1), .edit [("country", .str "US")],
    .event (.answer 1 (.ok .empty)), .event (.expire 2), .event (.answer 2 (.ok countryRequired))]

theorem published_latest_overtaking :
    start countrySetup [] = .ok countryStart
      ∧ Account countrySetup countryStart.snapshot
          ((World.ofCoordinator countryStart).run countrySetup overtaking)
      ∧ ((World.ofCoordinator countryStart).run countrySetup overtaking).coordinator.calls.map
          Request.sequence = [1, 2]
      ∧ ((World.ofCoordinator countryStart).run countrySetup overtaking).coordinator.published.map
          Snapshot.sequence = [2] :=
  ⟨countryStart_eq, ((published_latest countryStart_eq).2 overtaking).1, by decide, by decide⟩

end Formwork.Proofs
