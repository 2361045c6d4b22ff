import Formwork.Registry.Summary
import Formwork.Values.ErrorTree

/-!
# Reports in Markdown

Lists of forms, the details of a form and the issues of values, written for readers.
-/

namespace Formwork.Markdown

/-- Lines as a text. -/
def lines (ls : List String) : String := "\n".intercalate ls

/-- An item of a list. -/
def item (text : String) : String := "- " ++ text

/-- A text in bold. -/
def bold (text : String) : String := "**" ++ text ++ "**"

/-- A text as code. -/
def code (text : String) : String := "`" ++ text ++ "`"

/-- An item with a name. -/
def entry (name text : String) : String := item (bold name ++ ": " ++ text)

/-- A part of a line that is there only when the text is. -/
def clause (before text after : String) : String :=
  if text = "" then "" else before ++ text ++ after

/-- A part of a line that is there only when there is a text that is not empty. -/
def reference (before : String) (text? : Option String) : String := clause before (text?.getD "") ""

/-- A heading with a number of things. -/
def heading (title : String) (count : Nat) : String :=
  "## " ++ title ++ " (" ++ toString count ++ ")"

/-- A form in a list. -/
def formItem (s : FormSummary) : String :=
  item (bold s.id ++ " (v" ++ s.version ++ ", " ++ toString s.blocks ++ " blocks)" ++
    clause " - " s.title "")

/-- A list of forms. -/
def formList (forms : List FormSummary) : String :=
  if forms.isEmpty then "No forms found"
  else lines ([heading "Available Forms" forms.length, ""] ++ forms.map formItem)

/-- A block in the details of a form. -/
def blockLines (b : BlockSummary) : List String :=
  item (bold b.id ++ clause " (" b.title ")" ++ reference " - sub-form: " b.subForm ++
      reference " - repeats: " b.template ++ (if b.popin then " - popin" else "")) ::
    (if b.fields.isEmpty then [] else ["  " ++ item ("fields: " ++ ", ".intercalate b.fields)])

/-- Where a form is submitted: a method and an address. -/
structure Endpoint where
  method : String
  url : String

/-- The details of a form. -/
def formDetails (d : FormDetails) (endpoint : Option Endpoint) : String :=
  lines (["# Form: " ++ d.id, ""] ++
    (if d.title = "" then [] else [d.title, ""]) ++
    ["## Configuration", entry "Version" d.version,
      entry "Total Blocks" (toString d.blocks.length)] ++
    ((nonEmpty? d.source).map fun s => [entry "Source" s]).getD [] ++
    (if d.discriminants.isEmpty then []
      else [entry "Discriminant Fields" (", ".intercalate d.discriminants)]) ++
    ["", "## Blocks"] ++ d.blocks.flatMap blockLines ++
    (endpoint.map fun e =>
      ["", "## Submission", item (bold e.method ++ " " ++ code e.url)]).getD [])

/-- Where the form of these details is submitted. -/
def endpoint? (d : FormDetails) : Option Endpoint :=
  d.submission.map fun s => ⟨s.method.name, s.url⟩

/-- The issues of values. -/
def issueList (issues : List Issue) : String :=
  if issues.isEmpty then bold "Valid" ++ ": no validation issues"
  else lines ([heading "Validation Issues" issues.length, ""] ++
    issues.map fun i => item (code i.path ++ " (" ++ i.code ++ "): " ++ i.message))

/-- A form that is not there, with those that are. -/
def formNotFound (id : String) (available : List String) : String :=
  bold "Error" ++ ": Form not found: " ++ code id ++ "\n\n" ++ bold "Available forms:" ++ "\n" ++
    lines (available.map item)

end Formwork.Markdown
