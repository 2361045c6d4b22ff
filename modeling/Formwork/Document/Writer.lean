import Formwork.Document.Delta
import Formwork.Document.Fault

/-!
# Documents as values

The wire form of a document is an object with camel-case names. What is null is left out.
-/

namespace Formwork

/-- The members of an object under construction: those that are null are left out. -/
def present (ms : List (String × Option Value)) : Value :=
  .object (ms.filterMap fun (k, v?) => v?.map fun v => (k, v))

/-- A text as a value. -/
def optionalText (s : Option String) : Option Value := s.map .str

def ValidationRule.write (r : ValidationRule) : Value :=
  present [("type", some (.str r.kind)), ("value", r.parameter.map Parameter.toValue),
    ("message", some (.str r.message))]

def ListedOption.write (o : ListedOption) : Value :=
  present [("label", some (.str o.label)), ("value", some o.value.toValue)]

def Auth.write (a : Auth) : Value :=
  present [("type", some (.str a.scheme.name)), ("token", optionalText a.token),
    ("headerName", optionalText a.headerName), ("username", optionalText a.username),
    ("password", optionalText a.password)]

def DataSource.write (d : DataSource) : Value :=
  present [("url", some (.str d.url)), ("itemsTemplate", some (.str d.itemsTemplate)),
    ("iteratorTemplate", optionalText d.iteratorTemplate),
    ("dataSourceId", optionalText d.dataSourceId), ("auth", d.auth.map Auth.write)]

def Status.write (s : Status) : Value :=
  present [("hidden", optionalText s.hidden.text?), ("disabled", optionalText s.disabled.text?),
    ("readonly", optionalText s.readonly.text?)]

def MenuItem.write (i : MenuItem) : Value :=
  present [("label", some (.str i.label)), ("popinBlockId", some (.str i.popinBlockId)),
    ("status", i.status.map Status.write)]

def Button.write (b : Button) : Value :=
  present [("variant", some (.str b.variant.name)), ("popinBlockId", optionalText b.popinBlockId),
    ("items", b.items.map fun items => .list (items.map MenuItem.write))]

/-- The wire form of a default: a declared null is left out as well. -/
def Default.write? : Default → Option Value
  | .scalar s => some s.toValue
  | _ => none

def Field.write (f : Field) : Value :=
  present [("id", some (.str f.id)), ("type", some (.str f.kind.name)),
    ("label", some (.str f.label)), ("description", optionalText f.description),
    ("defaultValue", f.default.write?),
    ("items", f.items.map fun items => .list (items.map ListedOption.write)),
    ("dataSource", f.dataSource.map DataSource.write),
    ("validation", some (.list (f.validation.map ValidationRule.write))),
    ("isDiscriminant", some (.bool f.isDiscriminant)), ("status", f.status.map Status.write),
    ("button", f.button.map Button.write), ("repeatableGroupId", optionalText f.repeatableGroupId)]

def PopinLoad.write (p : PopinLoad) : Value :=
  present [("url", some (.str p.url)), ("dataSourceId", optionalText p.dataSourceId),
    ("auth", p.auth.map Auth.write)]

def PopinSubmit.write (p : PopinSubmit) : Value :=
  present [("url", some (.str p.url)), ("method", some (.str p.method.name)),
    ("payloadTemplate", optionalText p.payloadTemplate), ("auth", p.auth.map Auth.write)]

/-- A count as a value. -/
def optionalCount (n : Option Nat) : Option Value := n.map fun n => .int n

def Block.write (b : Block) : Value :=
  present [("id", some (.str b.id)), ("title", some (.str b.title)),
    ("description", optionalText b.description),
    ("fields", some (.list (b.fields.map Field.write))), ("status", b.status.map Status.write),
    ("subFormRef", optionalText b.subFormRef),
    ("subFormInstanceId", optionalText b.subFormInstanceId),
    ("popin", some (.bool b.popin)), ("popinLoad", b.popinLoad.map PopinLoad.write),
    ("popinSubmit", b.popinSubmit.map PopinSubmit.write),
    ("repeatable", some (.bool b.repeatable)), ("minInstances", optionalCount b.minInstances),
    ("maxInstances", optionalCount b.maxInstances),
    ("repeatableBlockRef", optionalText b.repeatableBlockRef),
    ("templateOnly", some (.bool b.templateOnly))]

/-- A map of texts as an object. -/
def textsValue (m : Ordered String) : Value := .object (m.map fun (k, v) => (k, .str v))

def Submission.write (s : Submission) : Value :=
  present [("url", some (.str s.url)), ("method", some (.str s.method.name)),
    ("payloadTemplate", optionalText s.payloadTemplate), ("headers", s.headers.map textsValue),
    ("auth", s.auth.map Auth.write)]

def Form.write (f : Form) : Value :=
  present [("id", optionalText f.id), ("title", optionalText f.title),
    ("version", some (.str f.version)), ("blocks", some (.list (f.blocks.map Block.write))),
    ("submission", f.submission.map Submission.write)]

def SubForm.write (s : SubForm) : Value :=
  present [("id", some (.str s.id)), ("title", some (.str s.title)),
    ("version", some (.str s.version)), ("blocks", some (.list (s.blocks.map Block.write))),
    ("submission", s.submission.map Submission.write)]

def BlockRule.write (r : BlockRule) : Value :=
  present [("id", some (.str r.id)), ("status", r.status.map Status.write)]

def FieldRule.write (r : FieldRule) : Value :=
  present [("id", some (.str r.id)),
    ("validation", r.validation.map fun rules => .list (rules.map ValidationRule.write)),
    ("status", r.status.map Status.write)]

def RuleDelta.write (d : RuleDelta) : Value :=
  present [("blocks", some (.list (d.blocks.map BlockRule.write))),
    ("fields", some (.list (d.fields.map FieldRule.write)))]

def PathStep.write : PathStep → Value
  | .key s => .str s
  | .index n => .int n

def Fault.write (f : Fault) : Value :=
  present [("loc", some (.list (f.path.map PathStep.write))), ("type", some (.str f.kind.code)),
    ("msg", some (.str f.kind.message))]

end Formwork
