import Formwork.Document.Form

/-!
# Remote exchanges

A request to a remote service gets an answer or none. An exchange is the sequence of what the
service will reply; every request takes the next reply, and a service that has nothing left to reply
does not know what is asked for.
-/

namespace Formwork

/-- A request to a remote service. -/
structure Message where
  method : Method
  url : String
  headers : Ordered String
  body : Option Value

/-- What becomes of a request. -/
inductive Reply where
  | answer (status : Nat) (body : String)
  | unreachable (reason : String)
  | timedOut (reason : String)
  deriving DecidableEq

/-- What a service will reply, and what it has been asked so far, oldest first. -/
structure Exchange where
  replies : List Reply
  sent : List Message

namespace Exchange

/-- The exchange at its beginning. -/
def ofReplies (replies : List Reply) : Exchange := ⟨replies, []⟩

/-- The status of an answer for something that is not there. -/
def notFound : Nat := 404

/-- Sends a request: the reply to it, and the exchange after it. -/
def send (e : Exchange) (m : Message) : Reply × Exchange :=
  match e.replies with
  | [] => (.answer notFound "", ⟨[], e.sent ++ [m]⟩)
  | r :: rest => (r, ⟨rest, e.sent ++ [m]⟩)

end Exchange

/-- Whether a status says that the request succeeded. -/
def isSuccess (status : Nat) : Bool := 200 ≤ status && status < 300

/-- A document without the mark of its encoding. -/
def withoutMark (body : String) : String :=
  match body.toList with
  | '\ufeff' :: rest => String.ofList rest
  | _ => body

namespace Url

open Formwork.Text

/-- The bytes that stand for themselves in a part of an address. -/
def isUnreserved (c : Char) : Bool := c.isAlphanum || c == '_' || c == '.' || c == '-' || c == '~'

/-- A byte as it is written in an address. -/
def encodeByte (byte : UInt8) : List Char :=
  let c := Char.ofNat byte.toNat
  if isUnreserved c then [c] else '%' :: (hexadecimal 2 byte.toNat).map Char.toUpper

/-- A text as a part of an address. -/
def encode (s : String) : String := String.ofList (s.toUTF8.data.toList.flatMap encodeByte)

end Url

end Formwork
