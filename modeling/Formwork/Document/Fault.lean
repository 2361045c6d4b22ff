import Formwork.Text.Quoted

/-!
# Faults of a document

Reading a document reports every fault in it, each with the path that leads to it. A fault has a
code for programs and a message for authors.
-/

namespace Formwork

open Formwork.Text (quotedList)

/-- A step of the path to a fault. -/
inductive PathStep where
  | key (name : String)
  | index (n : Int)
  deriving DecidableEq

/-- The laws that tie several fields of a document together. -/
inductive DocumentLaw where
  | menuWithoutItems
  | buttonWithoutTarget (variant : String)
  | itemsAndDataSource (fieldId : String)
  | instanceBounds (blockId : String) (least most : Nat)
  | duplicateBlocks (ids : List String)
  deriving DecidableEq

/-- The text of a broken law. -/
def DocumentLaw.message : DocumentLaw → String
  | .menuWithoutItems => "Menu buttons require at least one item"
  | .buttonWithoutTarget v => "'" ++ v ++ "' buttons require popinBlockId"
  | .itemsAndDataSource id => "Field '" ++ id ++ "' declares both items and dataSource"
  | .instanceBounds id least most =>
    "Block '" ++ id ++ "': minInstances (" ++ toString least ++ ") exceeds maxInstances (" ++
      toString most ++ ")"
  | .duplicateBlocks ids => "Duplicate block IDs found: " ++ quotedList ids

/-- The kinds of faults. -/
inductive FaultKind where
  | missing
  | extraForbidden
  | invalidKey
  | stringType
  | stringTooShort
  | intType
  | intParsing
  | intParsingSize
  | intFromFloat
  | finiteNumber
  | belowZero
  | floatType
  | boolType
  | boolParsing
  | listType
  | dictType
  /-- Not a mapping where a document part of this name is wanted. -/
  | modelType (name : String)
  /-- Not one of the values of an enumeration. -/
  | notInEnum (options : List String)
  /-- Not one of a few fixed words. -/
  | notALiteral (options : List String)
  | law (broken : DocumentLaw)
  deriving DecidableEq

/-- Quoted options with `or` before the last one. -/
def joinOptions : List String → String
  | [] => ""
  | [a] => "'" ++ a ++ "'"
  | [a, b] => "'" ++ a ++ "' or '" ++ b ++ "'"
  | a :: rest => "'" ++ a ++ "', " ++ joinOptions rest

namespace FaultKind

/-- The code of a fault. -/
def code : FaultKind → String
  | .missing => "missing"
  | .extraForbidden => "extra_forbidden"
  | .invalidKey => "invalid_key"
  | .stringType => "string_type"
  | .stringTooShort => "string_too_short"
  | .intType => "int_type"
  | .intParsing => "int_parsing"
  | .intParsingSize => "int_parsing_size"
  | .intFromFloat => "int_from_float"
  | .finiteNumber => "finite_number"
  | .belowZero => "greater_than_equal"
  | .floatType => "float_type"
  | .boolType => "bool_type"
  | .boolParsing => "bool_parsing"
  | .listType => "list_type"
  | .dictType => "dict_type"
  | .modelType _ => "model_type"
  | .notInEnum _ => "enum"
  | .notALiteral _ => "literal_error"
  | .law _ => "value_error"

/-- The message of a fault. -/
def message : FaultKind → String
  | .missing => "Field required"
  | .extraForbidden => "Extra inputs are not permitted"
  | .invalidKey => "Keys should be strings"
  | .stringType => "Input should be a valid string"
  | .stringTooShort => "String should have at least 1 character"
  | .intType => "Input should be a valid integer"
  | .intParsing => "Input should be a valid integer, unable to parse string as an integer"
  | .intParsingSize => "Unable to parse input string as an integer, exceeded maximum size"
  | .intFromFloat => "Input should be a valid integer, got a number with a fractional part"
  | .finiteNumber => "Input should be a finite number"
  | .belowZero => "Input should be greater than or equal to 0"
  | .floatType => "Input should be a valid number"
  | .boolType => "Input should be a valid boolean"
  | .boolParsing => "Input should be a valid boolean, unable to interpret input"
  | .listType => "Input should be a valid list"
  | .dictType => "Input should be a valid dictionary"
  | .modelType name => "Input should be a valid dictionary or instance of " ++ name
  | .notInEnum options => "Input should be " ++ joinOptions options
  | .notALiteral options => "Input should be " ++ joinOptions options
  | .law broken => "Value error, " ++ broken.message

end FaultKind

/-- A fault and the path that leads to it. -/
structure Fault where
  path : List PathStep
  kind : FaultKind
  deriving DecidableEq

/-- The same fault seen from one level further out. -/
def Fault.within (step : PathStep) (f : Fault) : Fault := { f with path := step :: f.path }

/-- The faults of one document. -/
structure DocumentFaults where
  /-- The name of the document part that was read. -/
  model : String
  faults : List Fault

/-- The head line of a report of faults. -/
def DocumentFaults.summary (d : DocumentFaults) : String :=
  toString d.faults.length ++ " validation error" ++ (if d.faults.length == 1 then "" else "s") ++
    " for " ++ d.model

end Formwork
