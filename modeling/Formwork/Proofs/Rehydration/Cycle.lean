import Formwork.Proofs.Context.Tracking
import Formwork.Proofs.Reference.Fixpoint
import Formwork.Proofs.Rehydration.LastEdit
import Formwork.Tool.Call

/-!
# One full cycle

A call asks for the rules of a form after an edit: a coordinator is made for it, gets one request,
is run until the request has ended, and is closed. What the request comes to is decided by the
provider's answer alone (`verdict`), and is what can be read off the coordinator in the end
(`Ends`): closing takes nothing of it away.

The request is for the context after the edit, or for the one before when nothing has changed. It
is not made at all when a discriminant cannot be looked up.
-/

namespace Formwork.Proofs

open Formwork Coordinator

/-! ## What a request comes to -/

/-- What the answer to a request comes to: a snapshot, or what is wrong. -/
def verdict (s : RehydrationSetup) (r : Request) : Response → Except RehydrationError Snapshot
  | .error f => .error (.fetch f)
  | .ok delta =>
    match (s.form.merge delta).compile s.validators with
    | .error e => .error (.apply e)
    | .ok schema => .ok ⟨r.sequence, r.context, s.form.merge delta, schema, delta⟩

/-- What a request has come to, as it can be read off the coordinator. -/
def ComesTo (c : Coordinator) : Except RehydrationError Snapshot → Prop
  | .error e => c.lastError = some e
  | .ok snapshot => c.lastError = none ∧ c.snapshot = snapshot

/-- A coordinator once it has sent a request and has got its answer. -/
structure Ends (s : RehydrationSetup) (c : Coordinator) (r : Request) (response : Response)
    (c' : Coordinator) : Prop where
  calls : c'.calls = c.calls ++ [r]
  comesTo : ComesTo c' (verdict s r response)

section Request

variable {s : RehydrationSetup} {c c' : Coordinator} {r : Request} {response : Response}

/-- Nothing is left to cancel at rest. -/
theorem Quiet.cancel_eq (h : Quiet c) : c.cancel = c := by
  obtain ⟨hwaiting, hsent⟩ := h
  cases c
  cases hwaiting
  cases hsent
  rfl

/-- A request without older ones ends as its answer decides. -/
theorem ends_settled (s : RehydrationSetup) (c : Coordinator) (context : Members)
    (response : Response) :
    Ends s c (lastRequest c context) response (settled s c context response) := by
  cases response with
  | error f =>
      rw [settled_error]
      exact ⟨rfl, rfl⟩
  | ok delta =>
      cases hcompile : (s.form.merge delta).compile s.validators with
      | error e =>
          rw [settled_rejected s c context hcompile]
          refine ⟨rfl, ?_⟩
          rw [verdict, hcompile]
          rfl
      | ok schema =>
          rw [settled_applied s c context hcompile]
          refine ⟨rfl, ?_⟩
          rw [verdict, hcompile]
          exact ⟨rfl, rfl⟩

/-- Closing a coordinator leaves what its request has come to. -/
theorem Ends.close (h : Ends s c r response c') : Ends s c r response c'.cancel.finish := by
  obtain ⟨hcalls, hcomes⟩ := h
  rw [Coordinator.finish, enter_eq]
  refine ⟨hcalls, ?_⟩
  cases hverdict : verdict s r response with
  | error _ | ok _ => rwa [hverdict] at hcomes

end Request

/-! ## A request in time -/

section Time

variable {s : RehydrationSetup} {script : RuleScript} {t : Timeline} {a : Appointment}

/-- Where only one thing is due, it happens. -/
theorem keepDue_single (h : t.appointments = [a]) (fuel : Nat) :
    Timeline.keepDue s script none (fuel + 1) t =
      Timeline.keepDue s script none fuel (t.keep s script a []) := by
  rw [Timeline.keepDue, h]
  rfl

/-- Where nothing is due, nothing happens. -/
theorem keepDue_nil (h : t.appointments = []) (fuel : Nat) :
    Timeline.keepDue s script none fuel t = t := by
  cases fuel with
  | zero => rfl
  | succ fuel =>
      rw [Timeline.keepDue, h]
      rfl

/-- A request that goes out arranges its answer. -/
theorem keep_called {r : Request}
    (h : (t.coordinator.step s a.event).calls = t.coordinator.calls ++ [r]) :
    t.keep s script a [] = ⟨max t.now a.due, t.coordinator.step s a.event,
      [⟨a.due + (script t.coordinator.calls.length).delay,
        .answer r.sequence (script t.coordinator.calls.length).response⟩]⟩ := by
  rw [Timeline.keep]
  dsimp only
  rw [h, List.drop_left]
  rfl

/-- What calls nobody arranges nothing. -/
theorem keep_uncalled (h : (t.coordinator.step s a.event).calls = t.coordinator.calls) :
    t.keep s script a [] = ⟨max t.now a.due, t.coordinator.step s a.event, []⟩ := by
  rw [Timeline.keep]
  dsimp only
  rw [h, List.drop_length]
  rfl

/-- A request that is made at rest is sent when its waiting ends, and answered. -/
theorem settle_submit {c : Coordinator} (hquiet : Quiet c) (debounce : Nat) (context : Members) :
    (((⟨0, c, []⟩ : Timeline).submit debounce context).settle s script).coordinator =
      settled s c context (script c.calls.length).response := by
  have hsubmitted : (⟨0, c, []⟩ : Timeline).submit debounce context =
      ⟨0, c.submit context, [⟨0 + debounce, .expire (c.sequence + 1)⟩]⟩ := by
    rw [Timeline.submit, submit_eq]
    rfl
  have hkept : (c.submit context).calls = c.calls := by rw [submit_eq]
  have hsent : (c.submit context).expire (c.sequence + 1) = inFlight c context := by
    rw [← expire_alone, hquiet.cancel_eq]
  have hsettled : (inFlight c context).answer s (c.sequence + 1) (script c.calls.length).response =
      settled s c context (script c.calls.length).response := by
    rw [settled, expire_alone]
  have hcalled : ((c.submit context).step s (.expire (c.sequence + 1))).calls =
      (c.submit context).calls ++ [lastRequest c context] := by
    rw [hkept, Coordinator.step, hsent]
    rfl
  rw [hsubmitted]
  -- Of the three steps that time is given, two are taken: the waiting ends, and the answer comes.
  show (Timeline.keepDue s script none 3 _).coordinator = _
  rw [keepDue_single rfl, keep_called hcalled, keepDue_single rfl, keep_uncalled, keepDue_nil rfl]
  · rw [hkept, Coordinator.step, hsent]
    exact hsettled
  · rw [hkept, Coordinator.step, hsent]
    exact (congrArg Coordinator.calls hsettled).trans (ends_settled s c context _).calls

/-- **A request that is made at rest is sent once, and ends as its answer decides.** -/
theorem request_ends (app : App RuleScript) (script : RuleScript) (form : Form) {c : Coordinator}
    (hquiet : Quiet c) (context : Members) :
    Ends (App.setup form) c (lastRequest c context) (script c.calls.length).response
      (app.request script form c context) := by
  refine Ends.close ?_
  rw [settle_submit hquiet]
  exact ends_settled _ c context _

end Time

/-! ## A call -/

section Call

variable {a : App RuleScript} {script : RuleScript} {form : Form} {values attributes : Members}

/-- Preparing a form asks for no rules. -/
theorem prepare_calls {ρ : Type} (a : App ρ) (target : Target) (delta : Option Value)
    (s : Session) : (a.prepare target delta s).2.calls = s.calls := by
  unfold App.prepare
  split
  · rfl
  · split <;> rfl

/-- What a request has come to is what a call gets. -/
theorem outcome_of_comesTo {c : Coordinator} {result : Except RehydrationError Snapshot}
    (h : ComesTo c result) (changed : Bool) :
    App.outcome changed c =
      (result.map (Rehydrated.mk changed)).mapError fun e => .refused (.rehydration e) := by
  cases result with
  | error e =>
      rw [App.outcome, show c.lastError = some e from h]
      rfl
  | ok snapshot =>
      obtain ⟨hnone, rfl⟩ := h
      rw [App.outcome, hnone]
      rfl

section Rehydrate

variable {base : Schema} (hrules : a.rules = some script) (hbase : form.compile [] = .ok base)

include hrules hbase

/-- A form that compiles has a coordinator, which has not asked for anything yet. -/
theorem coordinator_opens (context : Members) :
    ∃ c, a.coordinator form context = .ok c ∧ Quiet c ∧ c.sequence = 0 ∧ c.calls = []
      ∧ c.context = context := by
  rw [App.coordinator, hrules, Coordinator.start, show (App.setup form).form.compile
    (App.setup form).validators = .ok base from hbase]
  exact ⟨_, rfl, ⟨rfl, rfl⟩, rfl, rfl, rfl⟩

/-- **A form is rehydrated by one request**, for the context after the edit if that is another. -/
theorem rehydrate_edited {updated : Members} {changed : Bool}
    (hedit : CaseContext.edit (CaseContext.ofPrefill attributes) values form.discriminants =
      .ok (updated, changed)) (s : Session) :
    let context := if changed then updated else CaseContext.ofPrefill attributes
    a.rehydrate values attributes form s =
      (((verdict (App.setup form) ⟨1, context⟩ (script s.calls.length).response).map
          (Rehydrated.mk changed)).mapError fun e => .refused (.rehydration e),
        { s with calls := s.calls ++ [context] }) := by
  intro context
  obtain ⟨c, hopens, hquiet, hsequence, hcalls, hcontext⟩ :=
    coordinator_opens hrules hbase (CaseContext.ofPrefill attributes)
  have hedited : c.edited? (App.setup form) values =
      .ok (if changed then some updated else none) := by
    rw [Coordinator.edited?, hcontext, show (App.setup form).form = form from rfl, hedit]
    rfl
  have hasked : (if changed then some updated else none).getD c.context = context := by
    rw [hcontext]
    cases changed <;> rfl
  have hsome : (if changed then some updated else none).isSome = changed := by
    cases changed <;> rfl
  have hends := request_ends a (fun n => script (s.calls.length + n)) form hquiet context
  rw [lastRequest, hsequence, hcalls] at hends
  obtain ⟨hsent, hcomes⟩ := hends
  rw [App.rehydrate, hrules, hopens]
  dsimp only
  rw [hedited]
  dsimp only
  rw [hasked, hsome, outcome_of_comesTo hcomes, hsent, hcalls]
  rfl

/-- No request is made where the edit fails. -/
theorem rehydrate_unedited {fault : NumberFault}
    (hedit : CaseContext.edit (CaseContext.ofPrefill attributes) values form.discriminants =
      .error fault) (s : Session) :
    a.rehydrate values attributes form s = (.error (.interrupted (.number fault)), s) := by
  obtain ⟨c, hopens, -, -, -, hcontext⟩ :=
    coordinator_opens hrules hbase (CaseContext.ofPrefill attributes)
  have hedited : c.edited? (App.setup form) values = .error fault := by
    rw [Coordinator.edited?, hcontext, show (App.setup form).form = form from rfl, hedit]
    rfl
  rw [App.rehydrate, hrules, hopens]
  dsimp only
  rw [hedited]

end Rehydrate

/-- The answer that gives a form under its rules. -/
def rehydratedAnswer (changed : Bool) (context : Members) (form : Form) (schema : Schema) : Value :=
  .object [("status", .str "success"), ("changed", .bool changed), ("caseContext", .object context),
    ("descriptor", form.write), ("schema", schema.describe)]

/-- The answer that gives nothing but what went wrong. -/
def failureAnswer (e : RehydrationError) : Value :=
  .object [("status", .str "failure"), ("error", .str e.message), ("error_type", .str e.name)]

/-- What a call answers once its request has ended. -/
def cycleAnswer (changed : Bool) : Except RehydrationError Snapshot → Value
  | .error e => failureAnswer e
  | .ok snapshot => rehydratedAnswer changed snapshot.context snapshot.form snapshot.schema

/-- What a form is rehydrated to is answered. -/
theorem answer_rehydrated {target : Target} {s s' t : Session} {changed : Bool}
    {result : Except RehydrationError Snapshot}
    (hprepared : a.prepare target none s = (.ok form, s'))
    (hrehydrated : a.rehydrate values attributes form s' =
      ((result.map (Rehydrated.mk changed)).mapError fun e => .refused (.rehydration e), t)) :
    (ToolCall.rehydrateForm target values attributes).answer (some a) s =
      (.ok (cycleAnswer changed result), t) := by
  rw [ToolCall.answer, ToolCall.run]
  dsimp only
  rw [hprepared]
  dsimp only
  rw [hrehydrated]
  cases result <;> rfl

/-- An edit that fails interrupts the call. -/
theorem answer_unedited {target : Target} {s s' : Session} {base : Schema} {fault : NumberFault}
    (hrules : a.rules = some script) (hbase : form.compile [] = .ok base)
    (hprepared : a.prepare target none s = (.ok form, s'))
    (hedit : CaseContext.edit (CaseContext.ofPrefill attributes) values form.discriminants =
      .error fault) :
    (ToolCall.rehydrateForm target values attributes).answer (some a) s =
      (.error (.number fault), s') := by
  rw [ToolCall.answer, ToolCall.run]
  dsimp only
  rw [hprepared]
  dsimp only
  rw [rehydrate_unedited hrules hbase hedit]
  rfl

/--
**One full cycle.**

For every form that is prepared and compiles, whatever gives rules, and a case context without NaN:
if every discriminant can be looked up, rules are asked for once, for the context after the edit if
it has changed and for the one before if not. If the form under the delta compiles, it is what the
answer gives, with its schema, that context and whether it has changed. If the provider fails or the
form does not compile, the answer gives that error and nothing else. If a discriminant cannot be
looked up, no rules are asked for, and the call is interrupted.
-/
theorem rehydration_cycle {target : Target} {s s' : Session} {base : Schema}
    (hrules : a.rules = some script) (hprepared : a.prepare target none s = (.ok form, s'))
    (hbase : form.compile [] = .ok base) (hattributes : Proper (.object attributes)) :
    let call := ToolCall.rehydrateForm target values attributes
    let initial := CaseContext.ofPrefill attributes
    let response := (script s.calls.length).response
    s'.calls = s.calls
      ∧ (Answers values form.discriminants → ∃ updated,
        CaseContext.update initial values form.discriminants = .ok updated ∧
        let changed := CaseContext.hasChanged initial updated
        let context := if changed then updated else initial
        ∃ v, call.answer (some a) s = (.ok v, { s' with calls := s.calls ++ [context] })
          ∧ (∀ f, response = .error f → v = failureAnswer (.fetch f))
          ∧ (∀ delta e, response = .ok delta → (form.merge delta).compile [] = .error e →
            v = failureAnswer (.apply e))
          ∧ ∀ delta schema, response = .ok delta → (form.merge delta).compile [] = .ok schema →
            v = rehydratedAnswer changed context (form.merge delta) schema)
      ∧ (¬Answers values form.discriminants →
        ∃ fault, call.answer (some a) s = (.error (.number fault), s')) := by
  intro call initial response
  have hcalls : s'.calls = s.calls := by
    rw [← prepare_calls a target none s, hprepared]
  have hinitial : ProperContext initial := by
    rw [Proper] at hattributes
    exact fun e he => hattributes.2.mem (List.mem_filter.mp he).1
  refine ⟨hcalls, fun hanswers => ?_, fun hanswers => ?_⟩
  · obtain ⟨updated, hupdate, hedit⟩ := edit_eq hinitial hanswers
    have hrehydrated := rehydrate_edited hrules hbase hedit s'
    rw [hcalls] at hrehydrated
    refine ⟨updated, hupdate, _, answer_rehydrated hprepared hrehydrated, fun f hf => ?_,
      fun delta e hdelta hcompile => ?_, fun delta schema hdelta hcompile => ?_⟩
    · rw [show (script s.calls.length).response = .error f from hf]
      rfl
    · rw [show (script s.calls.length).response = .ok delta from hdelta, verdict,
        show ((App.setup form).form.merge delta).compile (App.setup form).validators = .error e
          from hcompile]
      rfl
    · rw [show (script s.calls.length).response = .ok delta from hdelta, verdict,
        show ((App.setup form).form.merge delta).compile (App.setup form).validators = .ok schema
          from hcompile]
      rfl
  · obtain ⟨fault, hfound⟩ := found_fails hanswers
    have hedit : CaseContext.edit initial values form.discriminants = .error fault := by
      rw [CaseContext.edit, hfound]
      rfl
    exact ⟨fault, answer_unedited hrules hbase hprepared hedit⟩

end Call

/-! ## Two forms -/

/-- An application that has a form under an id, and something that gives rules. -/
def formApp (id : String) (form : Form) (script : RuleScript) : App RuleScript :=
  ⟨⟨[(id, form)], []⟩, .empty, none, some script, Settings.default⟩

theorem formApp_prepares {id : String} (hid : id ≠ "") {form : Form}
    (hfree : ∀ b ∈ form.blocks, b.isConflicting = false)
    (hres : ∀ b ∈ form.blocks, b.isUnresolved = false) (script : RuleScript) (s : Session) :
    (formApp id form script).prepare ⟨some id, none⟩ none s = (.ok form, s) := by
  have htarget : (Target.mk (some id) none).form? (formApp id form script).forms = .ok form := by
    have hid? : nonEmpty? (some id) = some id := by simp [nonEmpty?, Option.filter_some, hid]
    rw [Target.form?, hid?]
    simp [formApp, Registry.lookup, Ordered.get?_cons]
  rw [App.prepare, htarget]
  dsimp only
  rw [resolveFrom_self hfree hres]
  rfl

/-- A first call is given the rule that a country has to be given, and the later ones fail. -/
def firstOnly : RuleScript := fun n =>
  if n = 0 then ⟨30, .ok countryRequired⟩ else ⟨0, .error (.provider ⟨"down", some 503⟩)⟩

/-- A new country is asked rules for, and so is the same country; but the second call fails. -/
theorem rehydration_cycle_country :
    let app := formApp "visit" countrySetup.form firstOnly
    let call := fun attributes =>
      ToolCall.rehydrateForm ⟨some "visit", none⟩ [("country", .str "FR")] attributes
    let merged := countrySetup.form.merge countryRequired
    ∃ schema, merged.compile [] = .ok schema
      ∧ (call [("country", .str "DE"), ("nights", .int 2)]).answer (some app)
          ⟨[], Exchange.ofReplies []⟩ =
        (.ok (rehydratedAnswer true [("country", .str "FR"), ("nights", .int 2)] merged schema),
          ⟨[[("country", .str "FR"), ("nights", .int 2)]], Exchange.ofReplies []⟩)
      ∧ (call [("country", .str "FR")]).answer (some app) ⟨[[]], Exchange.ofReplies []⟩ =
        (.ok (.object [("status", .str "failure"), ("error", .str "down"),
            ("error_type", .str "RuleProviderError")]),
          ⟨[[], [("country", .str "FR")]], Exchange.ofReplies []⟩) := by
  intro app call merged
  have hprepared : ∀ s, app.prepare ⟨some "visit", none⟩ none s = (.ok countrySetup.form, s) :=
    formApp_prepares (by decide) (by decide) (by decide) _
  obtain ⟨base, hbase⟩ : ∃ base, countrySetup.form.compile [] = .ok base := ⟨_, rfl⟩
  obtain ⟨schema, hschema⟩ : ∃ schema, merged.compile [] = .ok schema := ⟨_, rfl⟩
  have hanswers : Answers [("country", .str "FR")] countrySetup.form.discriminants := by
    intro d hd
    obtain rfl : d = countryField := List.mem_singleton.mp hd
    exact ⟨some (.str "FR"), rfl⟩
  have hanother : Proper (.object [("country", .str "DE"), ("nights", .int 2)]) := by
    simp [Proper, ProperMembers, Ordered.keys]
  have hsame : Proper (.object [("country", .str "FR")]) := by
    simp [Proper, ProperMembers, Ordered.keys]
  obtain ⟨-, hfirst, -⟩ := rehydration_cycle rfl (hprepared ⟨[], Exchange.ofReplies []⟩) hbase
    hanother
  obtain ⟨updated, hupdate, v, hanswer, -, -, happlied⟩ := hfirst hanswers
  obtain ⟨-, hlater, -⟩ := rehydration_cycle rfl (hprepared ⟨[[]], Exchange.ofReplies []⟩) hbase
    hsame
  obtain ⟨updated', hupdate', v', hanswer', hfailed, -⟩ := hlater hanswers
  cases hupdate
  cases hupdate'
  refine ⟨schema, hschema, ?_, ?_⟩
  · rw [hanswer, happlied _ schema rfl hschema]
    rfl
  · rw [hanswer', hfailed _ rfl]
    rfl

/-- A form that asks for a tag of a list, under a position that is no number. -/
def superscriptForm : Form :=
  ⟨none, none, "1.0", [fieldBlock "main" [{ textField "tags.²" with isDiscriminant := true }]],
    none⟩

/-- The call is interrupted, though the form compiles and nothing is wrong with rules or values. -/
theorem superscript_interrupts :
    let app := formApp "tagged" superscriptForm fun _ => ⟨0, .ok .empty⟩
    let s : Session := ⟨[], Exchange.ofReplies []⟩
    let values : Members := [("tags", .list [.str "a"])]
    Proper (.object values)
      ∧ app.prepare ⟨some "tagged", none⟩ none s = (.ok superscriptForm, s)
      ∧ (∃ base, superscriptForm.compile [] = .ok base)
      ∧ (∃ schema, (superscriptForm.merge .empty).compile [] = .ok schema)
      ∧ (ToolCall.rehydrateForm ⟨some "tagged", none⟩ values []).answer (some app) s =
        (.error (.number (.notAnInteger "²")), s) := by
  intro app s values
  have hprepared : app.prepare ⟨some "tagged", none⟩ none s = (.ok superscriptForm, s) :=
    formApp_prepares (by decide) (by decide) (by decide) _ _
  obtain ⟨base, hbase⟩ : ∃ base, superscriptForm.compile [] = .ok base := ⟨_, rfl⟩
  have hedit : CaseContext.edit (CaseContext.ofPrefill []) values superscriptForm.discriminants =
      .error (.notAnInteger "²") := by
    rfl
  exact ⟨by simp [values, Proper, ProperMembers, ProperItems, Ordered.keys], hprepared,
    ⟨base, hbase⟩, ⟨_, rfl⟩, answer_unedited rfl hbase hprepared hedit⟩

end Formwork.Proofs
