import Formwork.Document.FieldKind

/-!
# Fields

A field has a kind, a label, an optional default, options that are listed or fetched, an ordered
list of validation rules and templates for its status.

* A default is not declared, declared as null, or a scalar; the first two differ when values are
  seeded.
* Each status template is not given, given as null, or a template. In a form the first two mean the
  same; in an overlay the first keeps what is there and the second clears it.
-/

namespace Formwork

/-- A scalar of a document. -/
inductive Scalar where
  | text (s : String)
  | int (n : Int)
  | real (x : Binary64)
  | bool (b : Bool)
  deriving DecidableEq

/-- The value of a scalar. -/
def Scalar.toValue : Scalar → Value
  | .text s => .str s
  | .int n => .int n
  | .real x => .float x
  | .bool b => .bool b

/-- The parameter of a validation rule. -/
inductive Parameter where
  | int (n : Int)
  | real (x : Binary64)
  | text (s : String)
  deriving DecidableEq

def Parameter.toValue : Parameter → Value
  | .int n => .int n
  | .real x => .float x
  | .text s => .str s

/-- A validation rule. Its kind is free text: an unknown one is refused when the schema is compiled.
An empty message stands for the message of the kind. -/
structure ValidationRule where
  kind : String
  parameter : Option Parameter
  message : String
  deriving DecidableEq

/-- A listed option. -/
structure ListedOption where
  label : String
  value : Scalar
  deriving DecidableEq

/-- The schemes of authentication. -/
inductive AuthScheme where
  | bearer | apikey | basic
  deriving DecidableEq

def AuthScheme.name : AuthScheme → String
  | .bearer => "bearer"
  | .apikey => "apikey"
  | .basic => "basic"

/-- How a remote call authenticates. -/
structure Auth where
  scheme : AuthScheme
  token : Option String
  headerName : Option String
  username : Option String
  password : Option String
  deriving DecidableEq

/-- Where options are fetched from. -/
structure DataSource where
  url : String
  itemsTemplate : String
  iteratorTemplate : Option String
  dataSourceId : Option String
  auth : Option Auth
  deriving DecidableEq

/-- What a document says about one status template. -/
inductive StatusEntry where
  | unset
  | cleared
  | template (text : String)
  deriving DecidableEq

namespace StatusEntry

/-- The template, if there is one. -/
def text? : StatusEntry → Option String
  | .template s => some s
  | _ => none

/-- The entry for a template that may be missing. -/
def ofText? : Option String → StatusEntry
  | some s => .template s
  | none => .unset

/-- The entry after an overlay. -/
def overlay (base top : StatusEntry) : StatusEntry :=
  match top with
  | .unset => base
  | _ => top

end StatusEntry

/-- The status templates of a block or field. -/
structure Status where
  hidden : StatusEntry
  disabled : StatusEntry
  readonly : StatusEntry
  deriving DecidableEq

/-- An entry of a menu button. -/
structure MenuItem where
  label : String
  popinBlockId : String
  status : Option Status
  deriving DecidableEq

/-- The variants of buttons. -/
inductive ButtonVariant where
  | single | menu | link
  deriving DecidableEq

def ButtonVariant.name : ButtonVariant → String
  | .single => "single"
  | .menu => "menu"
  | .link => "link"

/-- What a button does. -/
structure Button where
  variant : ButtonVariant
  popinBlockId : Option String
  items : Option (List MenuItem)
  deriving DecidableEq

/-- What a document says about a default. -/
inductive Default where
  | undeclared
  | null
  | scalar (s : Scalar)
  deriving DecidableEq

namespace Default

/-- Whether a default is declared, even as null. -/
def isDeclared : Default → Bool
  | .undeclared => false
  | _ => true

/-- The declared value. -/
def toValue : Default → Value
  | .scalar s => s.toValue
  | _ => .null

end Default

/-- A field. -/
structure Field where
  id : String
  kind : FieldKind
  label : String
  description : Option String
  default : Default
  items : Option (List ListedOption)
  dataSource : Option DataSource
  validation : List ValidationRule
  isDiscriminant : Bool
  status : Option Status
  button : Option Button
  repeatableGroupId : Option String
  deriving DecidableEq

/-- A reference that is given and not empty. -/
def nonEmpty? (ref : Option String) : Option String := ref.filter (· != "")

/-- The group that a field belongs to. -/
def Field.group? (f : Field) : Option String := nonEmpty? f.repeatableGroupId

end Formwork
