import Formwork.Tool.Form
import Formwork.Tool.Markdown
import Formwork.Tool.Rules

/-!
# Tool calls

A call names a tool and what it is about; its answer is a value. An answer says whether the tool
succeeded, and gives either what was asked for or why it is refused. Reports for readers, and the
information about registered forms, are given as they are.
-/

namespace Formwork

/-- How information is written. -/
inductive ReportFormat where
  | data
  | markdown
  deriving DecidableEq

/-- What a template is evaluated to. -/
inductive EvaluationMode where
  | value
  | boolean
  | native
  deriving DecidableEq

/-- A call of a tool. -/
inductive ToolCall where
  | listForms (format : ReportFormat)
  | formInfo (form : String) (format : ReportFormat)
  | resolveForm (target : Target)
  | mergeRules (target : Target) (delta : Option Value)
  | compileSchema (target : Target) (delta : Option Value)
  | validateValues (target : Target) (delta : Option Value) (values : Members)
      (format : ReportFormat)
  | extractDefaults (target : Target) (attributes : Members)
  | updateContext (target : Target) (values previous : Members)
  | evaluateTemplate (template : Value) (context : Members) (mode : EvaluationMode)
  | evaluateStatus (target : Target) (delta : Option Value) (values context : Members)
  | renderPayload (form : String) (values : Members)
  | fetchRules (attributes : Members)
  | rehydrateForm (target : Target) (values attributes : Members)

namespace Refusal

/-- The answer of a tool that refuses. -/
def write (r : Refusal) : Value :=
  present [("status", some (.str "failure")), ("error", some (.str r.message)),
    ("error_type", optionalText r.cause?), ("available_forms", r.available?.map textList)]

end Refusal

namespace Tool

/-- The answer of a tool that succeeds. -/
def success (ms : Members) : Value := .object (("status", .str "success") :: ms)

/-- The answer about the values of a form. -/
def writeIssues (format : ReportFormat) (issues : List Issue) : Value :=
  match format with
  | .markdown => .str (Markdown.issueList issues)
  | .data => success [("valid", .bool issues.isEmpty), ("issues", .list (issues.map Issue.write)),
      ("errors", .object (ErrorTree.ofIssues issues))]

/-- The answer about the states of blocks and fields. Blocks have no read-only state. -/
def writeStates (blocks fields : Ordered State) : Value :=
  success [("blocks", .object (blocks.map fun (id, s) =>
      (id, .object [("hidden", .bool s.hidden), ("disabled", .bool s.disabled)]))),
    ("fields", .object (fields.map fun (id, s) => (id, s.write)))]

/-- The value of a template. -/
def evaluate (rules : List Template.Rule) (template : Value) (context : Members) :
    EvaluationMode → Except Template.CallFault Value
  | .value => (Template.evaluateValue rules template context).map .str
  | .boolean => (Template.evaluateCondition rules template context).map .bool
  | .native => .ok (Template.evaluateNative rules template context)

/-- The list of all forms. -/
def writeForms (format : ReportFormat) (forms : Registry Form) : Value :=
  match format with
  | .markdown => .str (Markdown.formList forms.summaries)
  | .data => .list (forms.summaries.map FormSummary.write)

/-- The information about one form, or about those that there are instead. -/
def writeInfo (format : ReportFormat) (forms : Registry Form) (id : String) : Value :=
  match forms.details id, format with
  | .ok d, .markdown => .str (Markdown.formDetails d (Markdown.endpoint? d))
  | .ok d, .data => d.write
  | .error _, .markdown => .str (Markdown.formNotFound id forms.ids)
  | .error _, .data => (Refusal.unknownForm id forms.ids).write

end Tool

namespace ToolCall

/-- Does something that needs an application and uses nothing up. -/
def withApp {ρ : Type} (app : Option (App ρ)) (act : App ρ → Except ToolStop Value) (s : Session) :
    Except ToolStop Value × Session :=
  match app with
  | none => (.error (.interrupted .noApp), s)
  | some a => (act a, s)

/-- What a call comes to. -/
def run (app : Option (App RuleScript)) (call : ToolCall) (s : Session) :
    Except ToolStop Value × Session :=
  match call with
  | .listForms format => withApp app (fun a => .ok (Tool.writeForms format a.forms)) s
  | .formInfo id format => withApp app (fun a => .ok (Tool.writeInfo format a.forms id)) s
  | .resolveForm target =>
    App.onForm app target none (fun f => .ok (Tool.success [("descriptor", f.write)])) s
  | .mergeRules target delta =>
    App.onForm app target delta (fun f => .ok (Tool.success [("descriptor", f.write)])) s
  | .compileSchema target delta =>
    App.onForm app target delta
      (fun f => (Tool.compile f).map fun c => Tool.success [("schema", c.describe)]) s
  | .validateValues target delta values format =>
    App.onForm app target delta
      (fun f => (Tool.validate values f).map (Tool.writeIssues format)) s
  | .extractDefaults target attributes =>
    App.onForm app target none
      (fun f => (Tool.defaults attributes f).map fun (context, values) =>
        Tool.success [("values", .object values), ("caseContext", .object context)]) s
  | .updateContext target values previous =>
    App.onForm app target none
      (fun f => (Tool.updateContext values previous f).map fun u =>
        Tool.success [("caseContext", .object u.context), ("changed", .bool u.changed),
          ("discriminantFields", textList u.discriminants)]) s
  | .evaluateTemplate template context mode =>
    (((Tool.evaluate Template.defaultRules template context mode).mapError fun f =>
      ToolStop.interrupted (.call f)).map fun v => Tool.success [("result", v)], s)
  | .evaluateStatus target delta values context =>
    App.onForm app target delta
      (fun f =>
        let (blocks, fields) := Tool.states values context f
        .ok (Tool.writeStates blocks fields)) s
  | .renderPayload id values =>
    withApp app (fun a => (Tool.submission a.forms id values).map fun (submission, v) =>
      Tool.success [("url", .str submission.url), ("method", .str submission.method.name),
        ("payload", v)]) s
  | .fetchRules attributes =>
    match app with
    | none => (.error (.interrupted .noApp), s)
    | some a =>
      let (delta, s) := a.fetchRules attributes s
      (delta.map fun d => Tool.success [("delta", d.write)], s)
  | .rehydrateForm target values attributes =>
    match app with
    -- This tool says itself that it is not available; the others are interrupted.
    | none => (.error (.refused .unavailable), s)
    | some a =>
      match a.prepare target none s with
      | (.error r, s) => (.error (.refused r), s)
      | (.ok form, s) =>
        let (result, s) := a.rehydrate values attributes form s
        (result.map fun r => Tool.success [("changed", .bool r.changed),
          ("caseContext", .object r.snapshot.context), ("descriptor", r.snapshot.form.write),
          ("schema", r.snapshot.schema.describe)], s)

/-- The answer to a call, or what interrupts it. -/
def answer (app : Option (App RuleScript)) (call : ToolCall) (s : Session) :
    Except ToolInterruption Value × Session :=
  match call.run app s with
  | (.ok v, s) => (.ok v, s)
  | (.error (.refused r), s) => (.ok r.write, s)
  | (.error (.interrupted i), s) => (.error i, s)

end ToolCall

end Formwork
