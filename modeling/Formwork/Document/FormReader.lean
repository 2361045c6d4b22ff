import Formwork.Document.Delta
import Formwork.Document.Reader

/-!
# Reading forms, sub-forms and deltas

Every field of a document has a camel-case name and may also be spelled with underscores. A rule
has two shapes, `kind` with `parameter` and `type` with `value`. Documents refuse unknown keys;
deltas ignore those beside the ones they know.
-/

namespace Formwork

open RecordReader Datum

/-- No law beyond those of the fields. -/
def lawless {α : Type} (_ : α) : Option DocumentLaw := none

/-- A name in camel case with its spelling with underscores. -/
def spellings (name : String) : List String :=
  let spelled := String.ofList (name.toList.flatMap fun c =>
    if c.isUpper then ['_', c.toLower] else [c])
  if spelled == name then [name] else [name, spelled]

/-! ## Unions of scalars -/

/-- The faults of a node that is none of several scalars. -/
def unionFaults {α : Type} (branches : List (String × FaultKind)) : Reading α :=
  .error (branches.map fun (name, kind) => ⟨[.key name], kind⟩)

def Scalar.read : Datum → Reading Scalar
  | .text s => .ok (.text s)
  | .int n => .ok (.int n)
  | .real x => .ok (.real x)
  | .bool b => .ok (.bool b)
  | _ => unionFaults [("str", .stringType), ("int", .intType), ("float", .floatType),
      ("bool", .boolType)]

/-- A boolean is read as the integer it stands for. -/
def Parameter.read : Datum → Reading Parameter
  | .int n => .ok (.int n)
  | .bool b => .ok (.int (if b then 1 else 0))
  | .real x => .ok (.real x)
  | .text s => .ok (.text s)
  | _ => unionFaults [("int", .intType), ("float", .floatType), ("str", .stringType)]

def Default.read : Datum → Reading Default
  | .null => .ok .null
  | d => (Scalar.read d).map .scalar

/-! ## Parts of fields -/

def ValidationRule.read : Datum → Reading ValidationRule :=
  ((const ValidationRule.mk)
    |>.field (required ["kind", "type"] readName)
    |>.field (optional ["parameter", "value"] Parameter.read)
    |>.field (withDefault ["message"] readText "")).read "ValidationRule" true lawless

def ListedOption.read : Datum → Reading ListedOption :=
  ((const ListedOption.mk)
    |>.field (required ["label"] readText)
    |>.field (required ["value"] Scalar.read)).read "FieldItem" true lawless

def AuthScheme.read : Datum → Reading AuthScheme :=
  readLiteral [.bearer, .apikey, .basic] AuthScheme.name

def Auth.read : Datum → Reading Auth :=
  ((const Auth.mk)
    |>.field (required ["type"] AuthScheme.read)
    |>.field (optional ["token"] readText)
    |>.field (optional (spellings "headerName") readText)
    |>.field (optional ["username"] readText)
    |>.field (optional ["password"] readText)).read "AuthConfig" true lawless

def DataSource.read : Datum → Reading DataSource :=
  ((const DataSource.mk)
    |>.field (required ["url"] readName)
    |>.field (required (spellings "itemsTemplate") readText)
    |>.field (optional (spellings "iteratorTemplate") readText)
    |>.field (optional (spellings "dataSourceId") readText)
    |>.field (optional ["auth"] Auth.read)).read "DataSourceConfig" true lawless

def StatusEntry.read : Datum → Reading StatusEntry
  | .null => .ok .cleared
  | d => (readText d).map .template

def Status.read : Datum → Reading Status :=
  ((const Status.mk)
    |>.field (withDefault ["hidden"] StatusEntry.read .unset)
    |>.field (withDefault ["disabled"] StatusEntry.read .unset)
    |>.field (withDefault ["readonly"] StatusEntry.read .unset)).read "StatusTemplates" true lawless

def MenuItem.read : Datum → Reading MenuItem :=
  ((const MenuItem.mk)
    |>.field (required ["label"] readText)
    |>.field (required (spellings "popinBlockId") readText)
    |>.field (optional ["status"] Status.read)).read "ButtonMenuItem" true lawless

/-- A menu has items, and any other button a target. -/
def Button.law (b : Button) : Option DocumentLaw :=
  match b.variant with
  | .menu => if (b.items.getD []).isEmpty then some .menuWithoutItems else none
  | v => if (nonEmpty? b.popinBlockId).isNone then some (.buttonWithoutTarget v.name) else none

def ButtonVariant.read : Datum → Reading ButtonVariant :=
  readLiteral [.single, .menu, .link] ButtonVariant.name

def Button.read : Datum → Reading Button :=
  ((const Button.mk)
    |>.field (withDefault ["variant"] ButtonVariant.read .single)
    |>.field (optional (spellings "popinBlockId") readText)
    |>.field (optional ["items"] (readList MenuItem.read))).read "ButtonConfig" true Button.law

/-! ## Fields and blocks -/

/-- Options are listed or fetched, not both. -/
def Field.law (f : Field) : Option DocumentLaw :=
  if f.items.isSome && f.dataSource.isSome then some (.itemsAndDataSource f.id) else none

def FieldKind.read : Datum → Reading FieldKind := readEnum FieldKind.all FieldKind.name

def Field.read : Datum → Reading Field :=
  ((const Field.mk)
    |>.field (required ["id"] readName)
    |>.field (required ["type"] FieldKind.read)
    |>.field (withDefault ["label"] readText "")
    |>.field (optional ["description"] readText)
    |>.field (withDefault (spellings "defaultValue") Default.read .undeclared)
    |>.field (optional ["items"] (readList ListedOption.read))
    |>.field (optional (spellings "dataSource") DataSource.read)
    |>.field (withDefault ["validation"] (readList ValidationRule.read) [])
    |>.field (withDefault (spellings "isDiscriminant") readBool false)
    |>.field (optional ["status"] Status.read)
    |>.field (optional ["button"] Button.read)
    |>.field (optional (spellings "repeatableGroupId") readText)).read
      "FieldDescriptor" true Field.law

def PopinLoad.read : Datum → Reading PopinLoad :=
  ((const PopinLoad.mk)
    |>.field (required ["url"] readName)
    |>.field (optional (spellings "dataSourceId") readText)
    |>.field (optional ["auth"] Auth.read)).read "PopinLoadConfig" true lawless

def PopinSubmit.read : Datum → Reading PopinSubmit :=
  ((const PopinSubmit.mk)
    |>.field (required ["url"] readName)
    |>.field (withDefault ["method"] (readLiteral [.post, .put, .patch] Method.name) .post)
    |>.field (optional (spellings "payloadTemplate") readText)
    |>.field (optional ["auth"] Auth.read)).read "PopinSubmitConfig" true lawless

/-- The least number of instances does not exceed the greatest. -/
def Block.law (b : Block) : Option DocumentLaw :=
  match b.minInstances, b.maxInstances with
  | some least, some most =>
    if most < least then some (.instanceBounds b.id least most) else none
  | _, _ => none

def Block.read : Datum → Reading Block :=
  ((const Block.mk)
    |>.field (required ["id"] readName)
    |>.field (withDefault ["title"] readText "")
    |>.field (optional ["description"] readText)
    |>.field (withDefault ["fields"] (readList Field.read) [])
    |>.field (optional ["status"] Status.read)
    |>.field (optional (spellings "subFormRef") readText)
    |>.field (optional (spellings "subFormInstanceId") readText)
    |>.field (withDefault ["popin"] readBool false)
    |>.field (optional (spellings "popinLoad") PopinLoad.read)
    |>.field (optional (spellings "popinSubmit") PopinSubmit.read)
    |>.field (withDefault ["repeatable"] readBool false)
    |>.field (optional (spellings "minInstances") readCount)
    |>.field (optional (spellings "maxInstances") readCount)
    |>.field (optional (spellings "repeatableBlockRef") readText)
    |>.field (withDefault (spellings "templateOnly") readBool false)).read
      "BlockDescriptor" true Block.law

/-! ## Documents -/

/-- The ids that occur more than once, in order and each once. -/
def repeatedIds (ids : List String) : List String :=
  (ids.filter fun id => 1 < ids.count id).eraseDups.mergeSort fun a b => a ≤ b

/-- A list of blocks with distinct ids. -/
def readBlocks (d : Datum) : Reading (List Block) :=
  match readList Block.read d with
  | .error e => .error e
  | .ok blocks =>
    match repeatedIds (blocks.map Block.id) with
    | [] => .ok blocks
    | ids => .fault (.law (.duplicateBlocks ids))

def Submission.read : Datum → Reading Submission :=
  ((const Submission.mk)
    |>.field (required ["url"] readName)
    |>.field (withDefault ["method"] (readLiteral [.get, .post, .put, .patch] Method.name) .post)
    |>.field (optional (spellings "payloadTemplate") readText)
    |>.field (optional ["headers"] readTexts)
    |>.field (optional ["auth"] Auth.read)).read "SubmissionConfig" true lawless

namespace Form

/-- The name of a form in reports. -/
def model : String := "FormDescriptor"

def read : Datum → Reading Form :=
  ((const Form.mk)
    |>.field (optional ["id"] readText)
    |>.field (optional ["title"] readText)
    |>.field (withDefault ["version"] readText "1.0")
    |>.field (withDefault ["blocks"] readBlocks [])
    |>.field (optional ["submission"] Submission.read)).read model true lawless

end Form

namespace SubForm

/-- The name of a sub-form in reports. -/
def model : String := "SubFormDescriptor"

def read : Datum → Reading SubForm :=
  ((const SubForm.mk)
    |>.field (required ["id"] readName)
    |>.field (required ["title"] readName)
    |>.field (required ["version"] readText)
    |>.field (withDefault ["blocks"] readBlocks [])
    |>.field (optional ["submission"] Submission.read)).read model true lawless

end SubForm

def BlockRule.read : Datum → Reading BlockRule :=
  ((const BlockRule.mk)
    |>.field (required ["id"] readName)
    |>.field (optional ["status"] Status.read)).read "BlockRule" false lawless

def FieldRule.read : Datum → Reading FieldRule :=
  ((const FieldRule.mk)
    |>.field (required ["id"] readName)
    |>.field (optional ["validation"] (readList ValidationRule.read))
    |>.field (optional ["status"] Status.read)).read "FieldRule" false lawless

namespace RuleDelta

/-- The name of a delta in reports. -/
def model : String := "RuleDelta"

/-- A section of a delta, which may be null. -/
def readSection {α : Type} (read : Datum → Reading α) : Datum → Reading (List α)
  | .null => .ok []
  | d => readList read d

def read : Datum → Reading RuleDelta :=
  ((const RuleDelta.mk)
    |>.field (withDefault ["blocks"] (readSection BlockRule.read) [])
    |>.field (withDefault ["fields"] (readSection FieldRule.read) [])).read model false lawless

end RuleDelta

end Formwork
