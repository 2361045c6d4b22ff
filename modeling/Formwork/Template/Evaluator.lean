import Formwork.Template.Evaluation
import Formwork.Template.Rule
import Formwork.Text.CaseMap

/-!
# Evaluating templates

A form uses templates as texts, as conditions and as values of their own kind. Whatever is wrong
with a template, its evaluation gives an answer: the empty text, false or null. What is no text, and
so no template, is shown as it is, if it can be shown.
-/

namespace Formwork.Template

open Formwork.Text

/-- The default rules in the order in which they run. -/
def defaultRules : List Rule := Rule.ordered []

/-- The printed form of a template. -/
def printedForm (rules : List Rule) (template : String) : Except SyntaxError String := do
  let tags ← Tag.read (Rule.applyAll rules template)
  .ok (Tag.printAll tags)

/-- The form of a template. -/
def compile (rules : List Rule) (template : String) : Except Failure (List Node) := do
  let tags ← (Tag.read (Rule.applyAll rules template)).mapError .malformed
  (Node.ofTags tags).mapError .illFormed

/-- The output of a template, or what keeps it from having one. -/
def render (rules : List Rule) (template : String) (context : Members) :
    Except Failure String := do
  let nodes ← compile rules template
  (renderAll ⟨context, []⟩ nodes).mapError .call

/-- The opening mark of a mustache. -/
def opensMustache (s : String) : Bool := contains "\x7b\x7b" s

/-- Whether a text holds a template expression. -/
def isTemplate (v : Value) : Bool :=
  match v with
  | .str s => opensMustache s && contains "\x7d\x7d" s
  | _ => false

/-- A template as a text: what it renders to, or nothing when it fails. -/
def evaluateText (rules : List Rule) (template : String) (context : Members) : String :=
  if opensMustache template then
    match render rules template context with
    | .ok s => s
    | .error _ => ""
  else template

/-- A value used as a text template. -/
def evaluateValue (rules : List Rule) (template : Value) (context : Members) :
    Except CallFault String :=
  match template with
  | .str s => .ok (evaluateText rules s context)
  | v => v.render

/-- The texts that count as true, when trimmed and in lower case. -/
def trueWords : List String := ["true", "1"]

/-- Whether an output counts as true. -/
def isTrueText (s : String) : Bool :=
  trueWords.contains (String.ofList (lowerAscii (trim s.toList)))

/-- A template as a condition, which fails with the template. -/
def holds (rules : List Rule) (template : String) (context : Members) : Bool :=
  match render rules template context with
  | .ok out => isTrueText out
  | .error _ => false

/-- A value used as a condition. -/
def evaluateCondition (rules : List Rule) (template : Value) (context : Members) :
    Except CallFault Bool :=
  match template with
  | .null => .ok false
  | .bool b => .ok b
  | .str s => .ok (holds rules s context)
  | v => v.render.map isTrueText

/-- The expression of a template that is nothing else. -/
def singleExpression? (source : String) : Option String := do
  let body ← "\x7b\x7b".toList.isPrefixOf? (trim source.toList)
  guard (2 ≤ body.length && "\x7d\x7d".toList.isSuffixOf body)
  let inner := trim (body.take (body.length - 2))
  guard (!occursIn "\x7b\x7b".toList inner && !occursIn "\x7d\x7d".toList inner)
  guard (!inner.isEmpty && !inner.head?.any (fun c => c == '#' || c == '/' || c == '!'))
  guard (inner != "else".toList)
  some (String.ofList inner)

/-- The value of a single expression. -/
def evaluateExpression (expression : String) (context : Members) : Except Failure Value := do
  let e ← (Expr.read [] expression).mapError .malformed
  e.check.mapError .illFormed
  let o ← (e.eval ⟨context, []⟩).mapError .call
  .ok o.toValue

/-- A template as a value: that of its only expression, or its output; null when it fails. -/
def evaluateNative (rules : List Rule) (template : Value) (context : Members) : Value :=
  match template with
  | .str s =>
    if opensMustache s then
      match singleExpression? (Rule.applyAll rules s) with
      | none =>
        match render rules s context with
        | .ok out => .str out
        | .error _ => .null
      | some e =>
        match evaluateExpression e context with
        | .ok v => v
        | .error _ => .null
    else template
  | v => v

end Formwork.Template
