import Formwork.Proofs.Sample
import Formwork.Rehydration.Coordinator

/-!
# A coordinator and what is done to it

The coordinator keeps no record of what it was asked and what it was answered. A
`World` adds one: every request that was submitted, under the number it was given,
and every answer that a request in flight has got.

The rest of this file says once what the end of a waiting and an answer can do to
a coordinator (`Expiry`, `Reply`). Every invariant is proved from these cases.
-/

namespace Formwork.Proofs

open Formwork Coordinator

/-! ## Actions and worlds -/

/-- What happens to a coordinator: an event, or an edit of the form's values. -/
inductive Action where
  | edit (values : Members)
  | event (e : RehydrationEvent)

/-- The context that an action submits, if it submits one. An edit does when it changes the
context. -/
def submitted? (s : RehydrationSetup) (c : Coordinator) : Action → Option Members
  | .event (.submit context) => some context
  | .edit values =>
    match c.edited? s values with
    | .ok context => context
    | .error _ => none
  | _ => none

/-- The answer that an action brings to a request in flight. -/
def taken? (c : Coordinator) : Action → Option (Nat × Response)
  | .event (.answer n response) =>
    if c.sent.any (·.sequence == n) then some (n, response) else none
  | _ => none

/-- No request is live: none waits and none is in flight. -/
def Quiet (c : Coordinator) : Prop := c.waiting = [] ∧ c.sent = []

theorem Quiet.not_waiting {c : Coordinator} (h : Quiet c) (r : Request) : r ∉ c.waiting := by
  rw [h.1]
  exact List.not_mem_nil

theorem Quiet.not_sent {c : Coordinator} (h : Quiet c) (r : Request) : r ∉ c.sent := by
  rw [h.2]
  exact List.not_mem_nil

/-- The coordinator after an action. -/
def actOn (s : RehydrationSetup) (c : Coordinator) : Action → Coordinator
  | .event e => c.step s e
  | .edit values =>
    match submitted? s c (.edit values) with
    | some context => c.submit context
    | none => c

/-- A coordinator with a record of what went in. -/
structure World where
  coordinator : Coordinator
  /-- The requests submitted so far, in order. -/
  issued : List Request
  /-- The answers that requests in flight have got so far, by their numbers. -/
  taken : List (Nat × Response)

namespace World

/-- The world of a coordinator from now on. -/
def ofCoordinator (c : Coordinator) : World := ⟨c, [], []⟩

/-- The world after an action. -/
def act (s : RehydrationSetup) (w : World) (a : Action) : World where
  coordinator := actOn s w.coordinator a
  issued := w.issued ++
    ((submitted? s w.coordinator a).map fun context => ⟨w.coordinator.sequence + 1, context⟩).toList
  taken := w.taken ++ (taken? w.coordinator a).toList

/-- The world after actions, one after another. -/
def run (s : RehydrationSetup) (w : World) (as : List Action) : World := as.foldl (act s) w

@[simp] theorem run_nil (s : RehydrationSetup) (w : World) : w.run s [] = w := rfl

@[simp] theorem run_cons (s : RehydrationSetup) (w : World) (a : Action) (as : List Action) :
    w.run s (a :: as) = (w.act s a).run s as := rfl

theorem run_append (s : RehydrationSetup) (w : World) (as bs : List Action) :
    w.run s (as ++ bs) = (w.run s as).run s bs := List.foldl_append

/-- What holds at first and is kept by every action holds at the end of every run. -/
theorem run_induction {s : RehydrationSetup} {P : World → Prop} {Q : Action → Prop} {w : World}
    {as : List Action} (h0 : P w) (hstep : ∀ w a, Q a → P w → P (w.act s a))
    (has : ∀ a ∈ as, Q a) : P (w.run s as) := by
  induction as generalizing w with
  | nil => exact h0
  | cons a as ih =>
      rw [run_cons]
      exact ih (hstep w a (has a (List.mem_cons_self ..)) h0)
        (fun b hb => has b (List.mem_cons_of_mem _ hb))

end World

/-- The coordinators that some run leads to, from the start with some context. -/
def Reachable (s : RehydrationSetup) (c : Coordinator) : Prop :=
  ∃ (context : Members) (c₀ : Coordinator) (as : List Action),
    start s context = .ok c₀ ∧ ((World.ofCoordinator c₀).run s as).coordinator = c

/-! ## What a step can do -/

/-- The phases entered once `p` has been. -/
def entering (c : Coordinator) (p : Phase) : List Phase :=
  if c.phase = p then c.entered else c.entered ++ [p]

theorem enter_eq (c : Coordinator) (p : Phase) :
    c.enter p = { c with phase := p, entered := entering c p } := by
  unfold Coordinator.enter entering
  split
  · rename_i h; subst h; rfl
  · rfl

theorem mem_without {n : Nat} {rs : List Request} {r : Request} :
    r ∈ without n rs ↔ r ∈ rs ∧ r.sequence ≠ n := by
  simp [without]

/-- What the next request leaves waiting: all but the pending one. -/
def unsettled (c : Coordinator) : List Request :=
  match c.pending with
  | some p => without p c.waiting
  | none => c.waiting

theorem unsettled_sublist (c : Coordinator) : (unsettled c).Sublist c.waiting := by
  unfold unsettled
  split
  · exact List.filter_sublist
  · exact List.Sublist.refl _

theorem submit_eq (c : Coordinator) (context : Members) :
    c.submit context =
      { c with
        sequence := c.sequence + 1
        context := context
        pending := some (c.sequence + 1)
        waiting := unsettled c ++ [⟨c.sequence + 1, context⟩]
        phase := .pendingDebounce
        entered := entering c .pendingDebounce } := by
  rw [Coordinator.submit, enter_eq]
  rfl

/-- The pending request once request `n` no longer waits. -/
def pendingWithout (c : Coordinator) (n : Nat) : Option Nat :=
  if c.pending = some n then none else c.pending

/-- What the end of the waiting of request `n` does. -/
inductive Expiry (c : Coordinator) (n : Nat) : Coordinator → Prop where
  /-- Nothing, when the request does not wait. -/
  | absent : (∀ r ∈ c.waiting, r.sequence ≠ n) → Expiry c n c
  /-- A request that is no longer the latest ends. -/
  | lapsed {r : Request} : r ∈ c.waiting → r.sequence = n → n ≠ c.sequence →
      Expiry c n { c with waiting := without n c.waiting, pending := pendingWithout c n }
  /-- The latest request goes out to the provider. -/
  | called {r : Request} : r ∈ c.waiting → r.sequence = n → n = c.sequence →
      Expiry c n
        { c with
          waiting := without n c.waiting
          pending := pendingWithout c n
          sent := c.sent ++ [r]
          calls := c.calls ++ [r]
          phase := .fetching
          entered := entering c .fetching }

/-- **What the end of a waiting does, in full.** -/
theorem expire_cases (c : Coordinator) (n : Nat) : Expiry c n (c.expire n) := by
  unfold Coordinator.expire
  cases hf : c.waiting.find? (·.sequence == n) with
  | none =>
      refine .absent (fun r hr => ?_)
      simpa using List.find?_eq_none.mp hf r hr
  | some r =>
      have hr : r ∈ c.waiting := List.mem_of_find?_eq_some hf
      have hn : r.sequence = n := by simpa using List.find?_some hf
      dsimp only
      split
      · rename_i hlast
        rw [enter_eq]
        exact .called hr hn hlast
      · rename_i hold
        exact .lapsed hr hn hold

/-- What an answer to request `n` does. -/
inductive Reply (s : RehydrationSetup) (c : Coordinator) (n : Nat) :
    Response → Coordinator → Prop where
  /-- Nothing, when the request is not in flight. -/
  | absent {response : Response} : (∀ r ∈ c.sent, r.sequence ≠ n) → Reply s c n response c
  /-- A late failure only ends its request. -/
  | lateFailure {r : Request} {f : FetchFailure} : r ∈ c.sent → r.sequence = n → n ≠ c.sequence →
      Reply s c n (.error f) { c with sent := without n c.sent }
  /-- A late delta is counted. -/
  | lateDelta {r : Request} {d : RuleDelta} : r ∈ c.sent → r.sequence = n → n ≠ c.sequence →
      Reply s c n (.ok d) { c with sent := without n c.sent, discarded := c.discarded + 1 }
  /-- The provider has failed the latest request. -/
  | failed {r : Request} {f : FetchFailure} : r ∈ c.sent → r.sequence = n → n = c.sequence →
      Reply s c n (.error f)
        { c with
          sent := without n c.sent
          lastError := some (.fetch f)
          context := c.snapshot.context
          phase := .idle
          entered := entering c .idle }
  /-- The delta for the latest request gives a form that does not compile. -/
  | rejected {r : Request} {d : RuleDelta} {e : SchemaError} :
      r ∈ c.sent → r.sequence = n → n = c.sequence →
      (s.form.merge d).compile s.validators = .error e →
      Reply s c n (.ok d)
        { c with
          sent := without n c.sent
          lastError := some (.apply e)
          context := c.snapshot.context
          phase := .idle
          entered := entering c .applying ++ [.idle] }
  /-- The delta for the latest request is applied. -/
  | applied {r : Request} {d : RuleDelta} {schema : Schema} :
      r ∈ c.sent → r.sequence = n → n = c.sequence →
      (s.form.merge d).compile s.validators = .ok schema →
      Reply s c n (.ok d)
        { c with
          sent := without n c.sent
          snapshot := ⟨r.sequence, r.context, s.form.merge d, schema, d⟩
          lastError := none
          published := c.published ++ [⟨r.sequence, r.context, s.form.merge d, schema, d⟩]
          phase := .idle
          entered := entering c .applying ++ [.idle] }

/-- **What an answer does, in full.** -/
theorem answer_cases (s : RehydrationSetup) (c : Coordinator) (n : Nat) (response : Response) :
    Reply s c n response (c.answer s n response) := by
  unfold Coordinator.answer
  cases hf : c.sent.find? (·.sequence == n) with
  | none =>
      refine .absent (fun r hr => ?_)
      simpa using List.find?_eq_none.mp hf r hr
  | some r =>
      have hr : r ∈ c.sent := List.mem_of_find?_eq_some hf
      have hn : r.sequence = n := by simpa using List.find?_some hf
      cases response with
      | error f =>
          dsimp only
          split
          · rename_i hlast
            rw [Coordinator.fail, enter_eq]
            exact .failed hr hn hlast
          · rename_i hold
            exact .lateFailure hr hn hold
      | ok d =>
          dsimp only
          split
          · rename_i hlast
            -- the phase is `applying` by now, so `idle` is entered for certain
            cases hc : (s.form.merge d).compile s.validators with
            | error e =>
                simp only [Coordinator.apply, hc, Coordinator.fail, enter_eq]
                exact .rejected hr hn hlast hc
            | ok schema =>
                simp only [Coordinator.apply, hc, enter_eq]
                exact .applied hr hn hlast hc
          · rename_i hold
            exact .lateDelta hr hn hold

/-- What an action does to a coordinator. -/
inductive Move (s : RehydrationSetup) (c : Coordinator) : Action → Coordinator → Prop where
  /-- An edit that submits nothing does nothing. -/
  | still {a : Action} : submitted? s c a = none → taken? c a = none → Move s c a c
  | issued {a : Action} {context : Members} : submitted? s c a = some context →
      taken? c a = none → Move s c a (c.submit context)
  | expired {n : Nat} {c' : Coordinator} : Expiry c n c' → Move s c (.event (.expire n)) c'
  | replied {n : Nat} {response : Response} {c' : Coordinator} : Reply s c n response c' →
      Move s c (.event (.answer n response)) c'
  | cancelled : Move s c (.event .cancel) { c with waiting := [], sent := [] }
  | finished :
      Move s c (.event .finish)
        { c with
          pending := none
          context := c.snapshot.context
          phase := .idle
          entered := entering c .idle }

/-- **What an action does, in full.** -/
theorem actOn_cases (s : RehydrationSetup) (c : Coordinator) (a : Action) :
    Move s c a (actOn s c a) := by
  cases a with
  | edit values =>
      cases hs : submitted? s c (.edit values) with
      | none => simpa [actOn, hs] using Move.still (s := s) hs rfl
      | some context => simpa [actOn, hs] using Move.issued hs rfl
  | event e =>
      cases e with
      | submit context => exact .issued rfl rfl
      | expire n => exact .expired (expire_cases c n)
      | answer n response => exact .replied (answer_cases s c n response)
      | cancel => exact .cancelled
      | finish =>
          show Move s c (.event .finish) c.finish
          rw [Coordinator.finish, enter_eq]
          exact .finished

/-! ## A form that asks for a country -/

def countryField : Field :=
  { textField "country" with label := "Country", isDiscriminant := true }

/-- The form has one field, which decides on the rules. -/
def countrySetup : RehydrationSetup :=
  ⟨⟨none, none, "1.0", [fieldBlock "main" [countryField]], none⟩, []⟩

/-- Its coordinator at the start of a case about which nothing is known. -/
def countryStart : Coordinator where
  context := []
  sequence := 0
  phase := .idle
  pending := none
  waiting := []
  sent := []
  lastError := none
  discarded := 0
  snapshot := ⟨0, [], countrySetup.form, ⟨[("country", ⟨"country", .text, []⟩)], []⟩, .empty⟩
  entered := []
  calls := []
  published := []

theorem countryStart_eq : start countrySetup [] = .ok countryStart := rfl

/-- The rules under which a country has to be given. -/
def countryRequired : RuleDelta := ⟨[], [⟨"country", some [⟨"required", none, ""⟩], none⟩]⟩

end Formwork.Proofs
