import Formwork.Context.Case
import Formwork.Rehydration.Error
import Formwork.Rules.Merge
import Formwork.Schema.Schema

/-!
# Coordinating rule requests

While a form is edited, its rules are asked for again whenever the case context has changed. Edits
come faster than answers, so every request has a number, and only the answer to the latest one
counts:

* a request first waits, in case another edit follows; the next request takes its place;
* it then goes out to the provider, and cannot be taken back;
* an answer that is not to the latest request is discarded;
* an answer to the latest request is merged and compiled, and form and schema are published together
  as one snapshot;
* a request that fails leaves the snapshot alone and takes the case context back to it.

The coordinator takes one event at a time: a new request, the end of a request's waiting, an answer,
and the two halves of closing. Besides its state it keeps what its observers have been told.
-/

namespace Formwork

/-- A form with its schema under the rules of a case context, published together. -/
structure Snapshot where
  sequence : Nat
  context : Members
  form : Form
  schema : Schema
  delta : RuleDelta

/-- What the coordinator is doing about the latest request. -/
inductive Phase where
  | idle | pendingDebounce | fetching | applying
  deriving DecidableEq

def Phase.name : Phase → String
  | .idle => "idle"
  | .pendingDebounce => "pending_debounce"
  | .fetching => "fetching"
  | .applying => "applying"

/-- A request for the rules of a case context. -/
structure Request where
  sequence : Nat
  context : Members

/-- What a provider answers. -/
abbrev Response := Except FetchFailure RuleDelta

/-- What happens to a coordinator. -/
inductive RehydrationEvent where
  | submit (context : Members)
  /-- The waiting of a request ends. -/
  | expire (sequence : Nat)
  | answer (sequence : Nat) (response : Response)
  /-- Closing begins: every live request is cancelled. -/
  | cancel
  /-- Closing ends, once the cancelled requests have. -/
  | finish

/-- The form whose rules are asked for, resolved, and the custom validators of its rules. -/
structure RehydrationSetup where
  form : Form
  validators : Ordered CustomValidator

/-- The state of a coordinator. -/
structure Coordinator where
  /-- The context of the latest request, or of the snapshot when there is none. -/
  context : Members
  /-- The number of the latest request. -/
  sequence : Nat
  phase : Phase
  /-- The request whose place the next one takes. -/
  pending : Option Nat
  waiting : List Request
  sent : List Request
  lastError : Option RehydrationError
  /-- How many answers came too late. -/
  discarded : Nat
  snapshot : Snapshot
  /-- The phases entered so far. -/
  entered : List Phase
  /-- The requests sent to the provider so far. -/
  calls : List Request
  /-- The snapshots published so far. -/
  published : List Snapshot

namespace Coordinator

/-- The coordinator before any request. -/
def start (s : RehydrationSetup) (context : Members) : Except SchemaError Coordinator :=
  (s.form.compile s.validators).map fun schema =>
    { context := context, sequence := 0, phase := .idle, pending := none, waiting := [], sent := [],
      lastError := none, discarded := 0,
      snapshot := ⟨0, context, s.form, schema, .empty⟩,
      entered := [], calls := [], published := [] }

/-- Enters a phase, unless the coordinator is in it. -/
def enter (c : Coordinator) (p : Phase) : Coordinator :=
  if c.phase = p then c else { c with phase := p, entered := c.entered ++ [p] }

/-- The requests without the one with this number. -/
def without (sequence : Nat) (requests : List Request) : List Request :=
  requests.filter fun r => r.sequence != sequence

/-- Issues a request. It takes the place of the pending one. -/
def submit (c : Coordinator) (context : Members) : Coordinator :=
  let sequence := c.sequence + 1
  -- Only a waiting request is taken back; one that has been sent is answered and then judged.
  let waiting := match c.pending with
    | some p => without p c.waiting
    | none => c.waiting
  let next : Coordinator := { c with
    sequence := sequence
    context := context
    pending := some sequence
    waiting := waiting ++ [⟨sequence, context⟩] }
  next.enter .pendingDebounce

/-- Ends the waiting of a request: it is sent when it is the latest. -/
def expire (c : Coordinator) (sequence : Nat) : Coordinator :=
  match c.waiting.find? (·.sequence == sequence) with
  | none => c
  | some r =>
    let ended : Coordinator := { c with
      waiting := without sequence c.waiting
      -- A later request may be the pending one by now.
      pending := if c.pending = some sequence then none else c.pending }
    if sequence = c.sequence then
      let sent : Coordinator := { ended with sent := c.sent ++ [r], calls := c.calls ++ [r] }
      sent.enter .fetching
    else ended

/-- Gives up the latest request. -/
def fail (c : Coordinator) (e : RehydrationError) : Coordinator :=
  let failed : Coordinator := { c with lastError := some e, context := c.snapshot.context }
  failed.enter .idle

/-- Publishes the form under a delta, if it compiles. -/
def apply (s : RehydrationSetup) (c : Coordinator) (r : Request) (delta : RuleDelta) :
    Coordinator :=
  let c := c.enter .applying
  let merged := s.form.merge delta
  match merged.compile s.validators with
  | .error e => c.fail (.apply e)
  | .ok schema =>
    let snapshot : Snapshot := ⟨r.sequence, r.context, merged, schema, delta⟩
    let applied : Coordinator := { c with
      snapshot := snapshot
      lastError := none
      published := c.published ++ [snapshot] }
    applied.enter .idle

/-- Takes an answer. -/
def answer (s : RehydrationSetup) (c : Coordinator) (sequence : Nat) (response : Response) :
    Coordinator :=
  match c.sent.find? (·.sequence == sequence) with
  | none => c
  | some r =>
    let c := { c with sent := without sequence c.sent }
    match response with
    -- A late failure says nothing about the latest request.
    | .error f => if sequence = c.sequence then c.fail (.fetch f) else c
    | .ok delta =>
      if sequence = c.sequence then c.apply s r delta
      else { c with discarded := c.discarded + 1 }

/-- Cancels every live request. -/
def cancel (c : Coordinator) : Coordinator := { c with waiting := [], sent := [] }

/-- Ends closing: the coordinator is as if nothing had been asked for since the snapshot. -/
def finish (c : Coordinator) : Coordinator :=
  let closed : Coordinator := { c with pending := none, context := c.snapshot.context }
  closed.enter .idle

/-- Takes an event. -/
def step (s : RehydrationSetup) (c : Coordinator) : RehydrationEvent → Coordinator
  | .submit context => c.submit context
  | .expire sequence => c.expire sequence
  | .answer sequence response => c.answer s sequence response
  | .cancel => c.cancel
  | .finish => c.finish

/-- Takes events one after another. -/
def run (s : RehydrationSetup) (c : Coordinator) (events : List RehydrationEvent) : Coordinator :=
  events.foldl (step s) c

/-- The context to ask for after an edit, if the edit changed it. -/
def edited? (s : RehydrationSetup) (c : Coordinator) (values : Members) :
    Except NumberFault (Option Members) :=
  (CaseContext.edit c.context values s.form.discriminants).map fun (context, changed) =>
    if changed then some context else none

end Coordinator

end Formwork
