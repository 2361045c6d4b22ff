import Formwork.Tool.Target

/-!
# Tools that ask for rules

Rules are asked for with a case context, either as such or for a form: then the request goes through
a coordinator, which is closed when the answer has been applied or given up.
-/

namespace Formwork

/-- A form under the rules of a case context. -/
structure Rehydrated where
  /-- Whether the edit changed the case context. -/
  changed : Bool
  snapshot : Snapshot

namespace App

/-- Asks for the rules of a case context. -/
def fetchRules (a : App RuleScript) (attributes : Members) (s : Session) :
    Except ToolStop RuleDelta × Session :=
  match a.rules with
  | none => (.error (.refused .noRules), s)
  | some script =>
    ((script s.calls.length).response.mapError ToolStop.ofFetch,
      { s with calls := s.calls ++ [CaseContext.ofPrefill attributes] })

/-- Runs one request of a coordinator to its end and closes the coordinator. -/
def request (a : App RuleScript) (script : RuleScript) (form : Form) (c : Coordinator)
    (context : Members) : Coordinator :=
  let t : Timeline := ⟨0, c, []⟩
  (((t.submit a.settings.debounce context).settle (setup form) script).close).coordinator

/-- What a coordinator has come to. -/
def outcome (changed : Bool) (c : Coordinator) : Except ToolStop Rehydrated :=
  match c.lastError with
  | some e => .error (.refused (.rehydration e))
  | none => .ok ⟨changed, c.snapshot⟩

/-- Brings a resolved form under the rules of the case context after an edit. The rules of the
current context are asked for when the edit does not change it. -/
def rehydrate (a : App RuleScript) (values attributes : Members) (form : Form) (s : Session) :
    Except ToolStop Rehydrated × Session :=
  match a.rules, a.coordinator form (CaseContext.ofPrefill attributes) with
  | none, _ => (.error (.refused .noRules), s)
  | some _, .error .noRules => (.error (.refused .noRules), s)
  | some _, .error (.schema e) => (.error (ToolStop.ofSchema .base e), s)
  | some script, .ok c =>
    match c.edited? (setup form) values with
    | .error fault => (.error (.interrupted (.number fault)), s)
    | .ok edited =>
      let later : RuleScript := fun n => script (s.calls.length + n)
      let closed := a.request later form c (edited.getD c.context)
      (outcome edited.isSome closed,
        { s with calls := s.calls ++ closed.calls.map Request.context })

end App

end Formwork
