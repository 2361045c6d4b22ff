import Formwork.Document.Loading
import Formwork.Reference.Collection

/-!
# Registries

A registry keeps documents by their ids, and beside them the directories that they came from, of
those that came from one. An id is given once: it has to be taken back before it is given to another
document.
-/

namespace Formwork

/-- Documents by their ids, and by their ids the directories that they came from. -/
structure Registry (α : Type) where
  documents : Ordered α
  sources : Ordered String

/-- What a registry holds, and how messages speak of it. -/
structure RegistryKind (α : Type) where
  documents : DocumentKind α
  /-- The id of a document from a file whose name has this stem. -/
  idOf : (stem : String) → α → String
  title : String
  /-- The noun at the beginning of a message. -/
  heading : String
  noun : String

/-- Registries of forms. A form without an id has the name of its file. -/
def formRegistry : RegistryKind Form :=
  ⟨formKind, fun stem f => (nonEmpty? f.id).getD stem, "FormRegistry", "Form", "form"⟩

/-- Registries of sub-forms. -/
def subFormRegistry : RegistryKind SubForm :=
  ⟨subFormKind, fun _ s => s.id, "SubFormRegistry", "Sub-form", "sub-form"⟩

/-- Why a registry does not do what it is asked to. -/
inductive RegistryFault where
  | alreadyRegistered (id : String)
  | notRegistered (id : String)
  | unknown (id : String) (available : List String)
  deriving DecidableEq

/-- The message of a fault. -/
def RegistryFault.message {α : Type} (kind : RegistryKind α) : RegistryFault → String
  | .alreadyRegistered id =>
    kind.heading ++ " '" ++ id ++ "' already registered. Use clear() or unregister() first."
  | .notRegistered id => kind.heading ++ " '" ++ id ++ "' not found in registry"
  | .unknown id available =>
    kind.heading ++ " '" ++ id ++ "' not found. Available " ++ kind.noun ++ "s: " ++
      Text.quotedList available

namespace Registry

variable {α : Type}

/-- The registry without documents. -/
def empty : Registry α := ⟨[], []⟩

/-- The document with an id. -/
def lookup (r : Registry α) (id : String) : Option α := Ordered.get? r.documents id

/-- The directory that a document came from. -/
def source? (r : Registry α) (id : String) : Option String := Ordered.get? r.sources id

/-- Whether an id is registered. -/
def has (r : Registry α) (id : String) : Bool := Ordered.has r.documents id

/-- The ids in order. -/
def ids (r : Registry α) : List String := sortIds (Ordered.keys r.documents)

/-- How many documents there are. -/
def size (r : Registry α) : Nat := r.documents.length

/-- Stores a document under an id, whether or not the id has been given. Only a document that came
from a directory has a source. -/
def store (r : Registry α) (id : String) (document : α) (source : Option String) : Registry α :=
  ⟨Ordered.insert r.documents id document,
    match source with
    | some directory => Ordered.insert r.sources id directory
    | none => r.sources⟩

/-- Takes out what is under an id. -/
def remove (r : Registry α) (id : String) : Registry α :=
  ⟨Ordered.erase r.documents id, Ordered.erase r.sources id⟩

/-- Gives an id to a document. -/
def register (r : Registry α) (id : String) (document : α) (source : Option String) :
    Except RegistryFault (Registry α) :=
  if r.has id then .error (.alreadyRegistered id) else .ok (r.store id document source)

/-- Takes an id back. -/
def unregister (r : Registry α) (id : String) : Except RegistryFault (Registry α) :=
  if r.has id then .ok (r.remove id) else .error (.notRegistered id)

/-- The document with an id, or the ids that there are. -/
def get (r : Registry α) (id : String) : Except RegistryFault α :=
  match r.lookup id with
  | some d => .ok d
  | none => .error (.unknown id r.ids)

/-- A registry as it is displayed. -/
def display (kind : RegistryKind α) (r : Registry α) : String :=
  "<" ++ kind.title ++ ": " ++ toString r.size ++ " " ++ kind.noun ++ "s>"

end Registry

end Formwork
