import Formwork.Document.FormReader
import Formwork.Document.LoadResult
import Formwork.Document.Writer
import Formwork.Yaml.Document

/-!
# Loading documents from text

Forms and sub-forms are written in YAML, of which JSON is a part. What an author can mend is
reported as a failed result. Two things interrupt loading instead: a scalar that announces a value
it does not have, such as a date in a thirteenth month, and a file that is not text.
-/

namespace Formwork

/-- What interrupts loading. -/
inductive Interruption where
  | scalar (fault : Yaml.ScalarFault)
  | notText
  deriving DecidableEq

/-- The message of an interruption by a scalar, where it has one. -/
def Yaml.ScalarFault.message : Yaml.ScalarFault → String
  | .notAnInteger base s =>
    "invalid literal for int() with base " ++ toString base ++ ": " ++ Text.quotedShortly s
  | .notAReal s => "could not convert string to float: " ++ Text.quoted s
  | .integerTooLong digits => (NumberFault.integerTooLong digits).message
  | .timestamp reason => reason
  | .characterCode code =>
    if code < Numeral.machineLimit then "chr() arg not in range(0x110000)"
    else Numeral.noMachineIntegerMessage
  | .notABoolean s => s
  | .notATimestamp => ""
  | .defaultTimestamp => "expected string or bytes-like object, got 'list'"
  | .emptyNumber => "string index out of range"
  | .realTooLarge => "int too large to convert to float"

/-- Why a document is not loaded. -/
inductive LoadError where
  | fileNotFound (noun path : String)
  | notAFile (path : String)
  | notADirectory (path : String)
  | noDirectories
  /-- A document whose id is taken; the noun is that of the registry. -/
  | duplicate (noun id directory : String)
  | malformed (source : String)
  | notAMapping (noun source typeName : String)
  | invalid (noun part : String) (source : Option String) (faults : DocumentFaults)

/-- The message of a load error. -/
def LoadError.message : LoadError → String
  | .fileNotFound noun path => noun ++ " file not found: " ++ path
  | .notAFile path => "Path is not a file: " ++ path
  | .notADirectory path => "Not a directory: " ++ path
  | .noDirectories => "No directories provided"
  | .duplicate noun id directory =>
    "Duplicate " ++ noun ++ " '" ++ id ++ "' found in " ++ directory
  | .malformed source => "Invalid YAML/JSON syntax in " ++ source
  | .notAMapping noun source typeName =>
    noun ++ " " ++ source ++ " must be a mapping, got " ++ typeName
  | .invalid noun part source faults =>
    let inner := part ++ " validation failed:\n" ++ faults.summary
    match source with
    | some s => noun ++ " validation failed in " ++ s ++ ":\n" ++ inner
    | none => inner

namespace LoadError

/-- A failed result with the message of an error. -/
def toResult {α : Type} (e : LoadError) (source : Option String) : LoadResult α :=
  if h : e.message = "" then .failure "Empty document" (by decide) none source
  else .failure e.message h none source

end LoadError

/-- A kind of document: what it is called in messages, and how it is read and written. -/
structure DocumentKind (α : Type) where
  noun : String
  part : String
  model : String
  read : Datum → Reading α
  write : α → Value

/-- Forms. -/
def formKind : DocumentKind Form :=
  ⟨"Descriptor", "Form descriptor", Form.model, Form.read, Form.write⟩

/-- Sub-forms. -/
def subFormKind : DocumentKind SubForm :=
  ⟨"Sub-form", "Sub-form", SubForm.model, SubForm.read, SubForm.write⟩

namespace DocumentKind

variable {α : Type}

/-- Reads a parsed document. `label` is what messages call its source, if they name it. -/
def ofDatum (kind : DocumentKind α) (label source : Option String) (d : Datum) : LoadResult α :=
  match kind.read d with
  | .ok a => .ok a source
  | .error faults =>
    (LoadError.invalid kind.noun kind.part label ⟨kind.model, faults⟩).toResult source

/-- Parses a text as a mapping. -/
def parse (kind : DocumentKind α) (content source : String) :
    Except Interruption (LoadResult Datum) :=
  match Yaml.read content with
  | .error .malformed => .ok ((LoadError.malformed source).toResult (some source))
  | .error (.scalar fault) => .error (.scalar fault)
  | .ok (.mapping entries) => .ok (.ok (.mapping entries) (some source))
  | .ok d => .ok ((LoadError.notAMapping kind.noun source d.typeName).toResult (some source))

/-- Loads a document from text. -/
def load (kind : DocumentKind α) (content source : String) : Except Interruption (LoadResult α) :=
  (kind.parse content source).map fun parsed =>
    parsed.andThen (kind.ofDatum (some source) (some source))

end DocumentKind

end Formwork
