import Formwork.Display
import Formwork.Registry.Summary
import Formwork.Tool.Markdown

/-!
# Reading summaries

A report may be asked for from the values of summaries instead of from registered forms. Such a
value must have certain members; other members that are missing or null say nothing. What is
reported must be such that it can be displayed.
-/

namespace Formwork

/-- Why there is no report. -/
inductive SummaryFault where
  | missing (key : String)
  | integerTooLong
  deriving DecidableEq

namespace SummaryReader

/-- A member that must be there. -/
def needed (ms : Members) (key : String) : Except SummaryFault Value :=
  match Ordered.get? ms key with
  | some v => .ok v
  | none => .error (.missing key)

/-- A value as it is displayed. -/
def displayed (v : Value) : Except SummaryFault String :=
  match v.display? with
  | some s => .ok s
  | none => .error .integerTooLong

/-- A member that must be there, as it is displayed. -/
def neededText (ms : Members) (key : String) : Except SummaryFault String := do
  displayed (← needed ms key)

/-- A member as it is displayed; nothing when it is missing or null. -/
def textOf (ms : Members) (key : String) : Except SummaryFault String :=
  match Ordered.get? ms key with
  | none | some .null => .ok ""
  | some v => displayed v

/-- The items of a member as they are displayed. -/
def textsOf (ms : Members) (key : String) : Except SummaryFault (List String) :=
  (((Ordered.get? ms key).bind Value.items?).getD []).mapM displayed

/-- The summary of a form. -/
def summary (v : Value) : Except SummaryFault FormSummary := do
  let ms := v.members?.getD []
  let title ← textOf ms "title"
  let id ← neededText ms "id"
  let version ← neededText ms "version"
  let blocks ← needed ms "blocks"
  let count := match blocks with
    | .int n => n.toNat
    | _ => 0
  .ok ⟨id, title, version, count⟩

/-- The summary of a block. -/
def block (v : Value) : Except SummaryFault BlockSummary := do
  let ms := v.members?.getD []
  let id ← neededText ms "id"
  let popin := match Ordered.get? ms "popin" with
    | some (.bool b) => b
    | _ => false
  .ok ⟨id, ← textOf ms "title", ← textsOf ms "fields", some (← textOf ms "subFormRef"),
    some (← textOf ms "repeatableBlockRef"), popin⟩

/-- Where a form is submitted, if it says so. -/
def endpoint? : Option Value → Except SummaryFault (Option Markdown.Endpoint)
  | some (.object (m :: ms)) => do
    let url ← neededText (m :: ms) "url"
    let method ← displayed ((Ordered.get? (m :: ms) "method").getD (.str Method.post.name))
    .ok (some ⟨method, url⟩)
  | _ => .ok none

/-- The details of a form, and where it is submitted. -/
def details (v : Value) : Except SummaryFault (FormDetails × Option Markdown.Endpoint) := do
  let ms := v.members?.getD []
  let id ← neededText ms "id"
  let version ← neededText ms "version"
  let blocks ← ((← needed ms "blocks").items?.getD []).mapM block
  let endpoint ← endpoint? (Ordered.get? ms "submission")
  .ok (⟨id, ← textOf ms "title", version, blocks, ← textsOf ms "discriminantFields", none,
    some (← textOf ms "source")⟩, endpoint)

end SummaryReader

end Formwork
