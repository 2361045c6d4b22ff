import Formwork.Tool.Call

/-!
# Arguments of tool calls

A tool is called by its name, with arguments by their names. Each tool has arguments that it needs
and others that may be left out; an argument that is null counts as left out.
-/

namespace Formwork

/-- Why a call is not understood. -/
inductive CallFault where
  | unknownTool
  | wrongArguments
  deriving DecidableEq

namespace ToolCall

/-- The arguments that each tool needs, and those that may be left out. -/
def arguments : List (String × List String × List String) :=
  [("list_forms", [], ["format"]), ("get_form_info", ["form"], ["format"]),
    ("resolve_form", [], ["form", "descriptor"]),
    ("merge_rules", ["delta"], ["form", "descriptor"]),
    ("compile_schema", [], ["form", "descriptor", "delta"]),
    ("validate_form_values", ["values"], ["form", "descriptor", "delta", "format"]),
    ("extract_defaults", [], ["form", "descriptor", "case_context"]),
    ("update_case_context", ["form_values"], ["form", "descriptor", "previous_context"]),
    ("evaluate_template", ["template"], ["context", "mode"]),
    ("evaluate_form_status", [], ["form", "descriptor", "form_values", "case_context", "delta"]),
    ("render_submission_payload", ["form", "values"], []), ("fetch_rules", ["case_context"], []),
    ("rehydrate_form", ["form_values"], ["form", "descriptor", "case_context"])]

/-- Whether a tool that needs some arguments and takes some more takes these. -/
def takes (needed optional : List String) (args : Members) : Bool :=
  needed.all (Ordered.has args) && args.all fun (k, _) => needed.contains k || optional.contains k

/-- The argument with a name. -/
def argument? (args : Members) (name : String) : Option Value :=
  (Ordered.get? args name).filter fun v => !v.isNull

/-- The text of an argument. -/
def textArgument (args : Members) (name : String) : String :=
  ((argument? args name).bind Value.text?).getD ""

/-- The members of an argument. -/
def membersArgument (args : Members) (name : String) : Members :=
  ((argument? args name).bind Value.members?).getD []

/-- The form that a call is about. -/
def targetOf (args : Members) : Target :=
  ⟨(argument? args "form").bind Value.text?, argument? args "descriptor"⟩

/-- The format that a text names. -/
def formatOf (s : String) : ReportFormat := if s = "markdown" then .markdown else .data

/-- The mode that a text names. -/
def modeOf (s : String) : EvaluationMode :=
  if s = "boolean" then .boolean else if s = "native" then .native else .value

/-- The call of a tool with arguments that it takes. -/
def ofArguments? (args : Members) (name : String) : Option ToolCall :=
  let target := targetOf args
  let delta := argument? args "delta"
  let form := textArgument args "form"
  let format := formatOf (textArgument args "format")
  let values := membersArgument args "values"
  let formValues := membersArgument args "form_values"
  let context := membersArgument args "case_context"
  match name with
  | "list_forms" => some (.listForms format)
  | "get_form_info" => some (.formInfo form format)
  | "resolve_form" => some (.resolveForm target)
  | "merge_rules" => some (.mergeRules target delta)
  | "compile_schema" => some (.compileSchema target delta)
  | "validate_form_values" => some (.validateValues target delta values format)
  | "extract_defaults" => some (.extractDefaults target context)
  | "update_case_context" =>
    some (.updateContext target formValues (membersArgument args "previous_context"))
  | "evaluate_template" =>
    some (.evaluateTemplate ((argument? args "template").getD .null)
      (membersArgument args "context") (modeOf (textArgument args "mode")))
  | "evaluate_form_status" => some (.evaluateStatus target delta formValues context)
  | "render_submission_payload" => some (.renderPayload form values)
  | "fetch_rules" => some (.fetchRules context)
  | "rehydrate_form" => some (.rehydrateForm target formValues context)
  | _ => none

/-- Reads a call. -/
def read (name : String) (args : Members) : Except CallFault ToolCall :=
  match arguments.lookup name, ofArguments? args name with
  | some (needed, optional), some call =>
    if takes needed optional args then .ok call else .error .wrongArguments
  | _, _ => .error .unknownTool

end ToolCall

end Formwork
