import Formwork.Document.Writer
import Formwork.Registry.Basic

/-!
# Summaries of registered forms

A list of forms shows each by its id, title, version and number of blocks. The details of one form
show its blocks with what they stand for, the discriminants, where the form is submitted, and where
it came from.
-/

namespace Formwork

/-- A form in a list. -/
structure FormSummary where
  id : String
  title : String
  version : String
  blocks : Nat
  deriving DecidableEq

/-- A block in the details of a form. -/
structure BlockSummary where
  id : String
  title : String
  fields : List String
  subForm : Option String
  template : Option String
  popin : Bool
  deriving DecidableEq

/-- A form in detail. -/
structure FormDetails where
  id : String
  title : String
  version : String
  blocks : List BlockSummary
  discriminants : List String
  submission : Option Submission
  source : Option String
  deriving DecidableEq

/-- The summary of a block. -/
def Block.summary (b : Block) : BlockSummary :=
  ⟨b.id, b.title, b.fields.map Field.id, b.subForm?, b.template?, b.popin⟩

/-- The summary of a form that is registered under an id. -/
def Form.summary (f : Form) (id : String) : FormSummary :=
  ⟨id, f.title.getD "", f.version, f.blocks.length⟩

/-- The details of a form that is registered under an id. -/
def Form.details (f : Form) (id : String) (source : Option String) : FormDetails :=
  ⟨id, f.title.getD "", f.version, f.blocks.map Block.summary, f.discriminants.map Field.id,
    f.submission, source⟩

/-- Texts as a value. -/
def textList (texts : List String) : Value := .list (texts.map .str)

def FormSummary.write (s : FormSummary) : Value :=
  present [("id", some (.str s.id)), ("title", some (.str s.title)),
    ("version", some (.str s.version)), ("blocks", some (.int s.blocks))]

def BlockSummary.write (b : BlockSummary) : Value :=
  present [("id", some (.str b.id)), ("title", some (.str b.title)),
    ("fields", some (textList b.fields)), ("subFormRef", optionalText b.subForm),
    ("repeatableBlockRef", optionalText b.template),
    ("popin", if b.popin then some (.bool true) else none)]

def FormDetails.write (d : FormDetails) : Value :=
  present [("id", some (.str d.id)), ("title", some (.str d.title)),
    ("version", some (.str d.version)), ("blocks", some (.list (d.blocks.map BlockSummary.write))),
    ("discriminantFields", some (textList d.discriminants)),
    ("submission", d.submission.map Submission.write), ("source", optionalText d.source)]

namespace Registry

/-- The summary of the form with an id. -/
def summary (r : Registry Form) (id : String) : Except RegistryFault FormSummary :=
  (r.get id).map fun f => f.summary id

/-- The details of the form with an id. -/
def details (r : Registry Form) (id : String) : Except RegistryFault FormDetails :=
  (r.get id).map fun f => f.details id (r.source? id)

/-- The registered forms with their ids, in the order of the ids. -/
def listed (r : Registry Form) : List (String × Form) :=
  r.ids.filterMap fun id => (r.lookup id).map fun f => (id, f)

/-- The summaries of all forms. -/
def summaries (r : Registry Form) : List FormSummary :=
  r.listed.map fun (id, f) => f.summary id

/-- The details of all forms. -/
def allDetails (r : Registry Form) : List FormDetails :=
  r.listed.map fun (id, f) => f.details id (r.source? id)

end Registry

end Formwork
