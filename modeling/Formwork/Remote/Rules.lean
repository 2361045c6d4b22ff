import Formwork.Document.FormReader
import Formwork.Json.Reader
import Formwork.Rehydration.Coordinator
import Formwork.Remote.Exchange

/-!
# Remote rules

A remote service is sent the case context as a JSON object and answers with a delta, or with null
for the delta that changes nothing. Only numbers that JSON has can be sent.
-/

namespace Formwork

/-- A service that gives rules. The time limit is kept as it is shown. -/
structure RuleService where
  url : String
  headers : Ordered String
  timeLimit : String

/-- The time limit when nothing else is said. -/
def defaultTimeLimit : String := "10.0"

namespace Value

mutual

/-- Whether all numbers of a value are ones that JSON has. -/
def isSendable : Value → Bool
  | .float x => x.isFinite
  | .list items => areSendable items
  | .object ms => membersSendable ms
  | _ => true

/-- Whether all numbers of items are ones that JSON has. -/
def areSendable : List Value → Bool
  | [] => true
  | x :: xs => isSendable x && areSendable xs

/-- Whether all numbers of members are ones that JSON has. -/
def membersSendable : List (String × Value) → Bool
  | [] => true
  | (_, x) :: ms => isSendable x && membersSendable ms

end

end Value

namespace RuleService

/-- A failure with a message alone. -/
def failed (message : String) : Response := .error (.provider ⟨message, none⟩)

/-- Reads the body of an answer. -/
def readBody (body : String) : Response :=
  match Json.read (withoutMark body) with
  | .error _ => failed "Rule provider returned invalid JSON"
  | .ok .null => .ok .empty
  | .ok v =>
    match RuleDelta.read (Datum.ofValue v) with
    | .ok d => .ok d
    | .error faults =>
      failed ("Rule provider returned an invalid delta: " ++
        (DocumentFaults.mk RuleDelta.model faults).summary)

/-- What a reply says about rules. -/
def ofReply (s : RuleService) : Reply → Response
  | .timedOut _ => failed ("Rule fetch timed out after " ++ s.timeLimit ++ "s: " ++ s.url)
  | .unreachable reason => failed ("Rule fetch failed for " ++ s.url ++ ": " ++ reason)
  | .answer status body =>
    if isSuccess status then readBody body
    else .error (.provider ⟨"Rule provider answered HTTP " ++ toString status, some status⟩)

/-- The request for the rules of a context. -/
def request (s : RuleService) (context : Members) : Message :=
  ⟨.post, s.url, s.headers, some (.object context)⟩

/-- Asks for the rules of a context. -/
def fetch (s : RuleService) (context : Members) (e : Exchange) : Response × Exchange :=
  if (Value.object context).isSendable then
    let (reply, e) := e.send (s.request context)
    (s.ofReply reply, e)
  else (.error .unsendable, e)

end RuleService

end Formwork
