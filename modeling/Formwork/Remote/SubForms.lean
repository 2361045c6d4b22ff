import Formwork.Document.Loading
import Formwork.Json.Reader
import Formwork.Reference.Collection
import Formwork.Remote.Exchange
import Formwork.Text.Search

/-!
# Remote sub-forms

A remote service gives sub-forms by their ids, at an address that is made from the id. An answer
that nothing is there means that the service does not know the id; whatever else keeps a sub-form
from being read is an error.
-/

namespace Formwork

/-- The place of the id in an address. -/
def idMark : String := "\x7bid\x7d"

/-- Where a service gives sub-forms: an address with the mark in the place of the id. -/
structure SubFormService where
  template : String
  headers : Ordered String
  marked : Text.contains idMark template = true

namespace SubFormService

/-- The service at an address, if the address has a place for the id. -/
def ofTemplate? (template : String) (headers : Ordered String) : Option SubFormService :=
  if h : Text.contains idMark template = true then some ⟨template, headers, h⟩ else none

/-- Why an address is not accepted. -/
def unmarkedMessage (template : String) : String :=
  "Sub-form URL template must contain '" ++ idMark ++ "': " ++ template

/-- The address of a sub-form. -/
def url (s : SubFormService) (id : String) : String :=
  Text.replace idMark (Url.encode id) s.template

/-- Reads the body of an answer. -/
def readBody (url id body : String) : Except ReferenceError SubForm :=
  match Json.read (withoutMark body) with
  | .error _ => .error (.fetch id (.invalid url none))
  | .ok v =>
    match SubForm.read (Datum.ofValue v) with
    | .ok f => .ok f
    | .error faults =>
      .error (.fetch id (.invalid url (some (DocumentFaults.mk SubForm.model faults).summary)))

/-- What a reply says about a sub-form. -/
def ofReply (url id : String) : Reply → Except ReferenceError (Option SubForm)
  | .unreachable reason => .error (.fetch id (.unreachable url reason))
  | .timedOut reason => .error (.fetch id (.unreachable url reason))
  | .answer status body =>
    if status = Exchange.notFound then .ok none
    else if !isSuccess status then .error (.fetch id (.refused status))
    else (readBody url id body).map some

/-- The request for a sub-form. -/
def request (s : SubFormService) (id : String) : Message := ⟨.get, s.url id, s.headers, none⟩

/-- The provider that asks the service. -/
def provider (s : SubFormService) : Provider Exchange where
  lookup id e :=
    let (reply, e) := e.send (s.request id)
    (ofReply (s.url id) id reply, e)
  available := []
  supply e := e.replies.length

end SubFormService

end Formwork
