/-!
# Load results

Loading a document is a chain of steps, each of which gives a value or fails with a message for the
document's author. A result remembers which document it came from; a step that does not say keeps
the source of the step before it. A failure passes through the steps after it.
-/

namespace Formwork

/-- Why a result cannot be made. -/
inductive LoadResultFault where
  | successWithoutValue
  | failureWithoutMessage
  deriving DecidableEq

def LoadResultFault.message : LoadResultFault → String
  | .successWithoutValue => "Success result must have a value"
  | .failureWithoutMessage => "Failed result must have an error message"

/--
The outcome of a load step. A success has a value and a failure has a message that is not empty;
either may carry the other part as a remark.
-/
inductive LoadResult (α : Type _) where
  | success (value : α) (remark : Option String) (source : Option String)
  | failure (error : String) (nonempty : error ≠ "") (remnant : Option α)
      (source : Option String)

namespace LoadResult

variable {α β : Type _}

/-- A success. -/
def ok (value : α) (source : Option String) : LoadResult α := .success value none source

/-- A failure, if there is a message. -/
def fail? (error : String) (source : Option String) : Except LoadResultFault (LoadResult α) :=
  if h : error = "" then .error .failureWithoutMessage else .ok (.failure error h none source)

/-- A result from its parts. -/
def make? (succeeded : Bool) (value : Option α) (error : Option String) (source : Option String) :
    Except LoadResultFault (LoadResult α) :=
  match succeeded, value with
  | true, some v => .ok (.success v error source)
  | true, none => .error .successWithoutValue
  | false, value =>
    match error with
    | none => .error .failureWithoutMessage
    | some e =>
      if h : e = "" then .error .failureWithoutMessage else .ok (.failure e h value source)

def isSuccess : LoadResult α → Bool
  | .success .. => true
  | .failure .. => false

def value? : LoadResult α → Option α
  | .success v _ _ => some v
  | .failure _ _ v _ => v

def error? : LoadResult α → Option String
  | .success _ e _ => e
  | .failure e _ _ _ => some e

def source? : LoadResult α → Option String
  | .success _ _ s => s
  | .failure _ _ _ s => s

/-- The same result with a source, unless it has one. -/
def withSource (source : Option String) : LoadResult α → LoadResult α
  | .success v e s => .success v e (s <|> source)
  | .failure e h v s => .failure e h v (s <|> source)

/-- Runs the next step on the value. -/
def andThen (r : LoadResult α) (step : α → LoadResult β) : LoadResult β :=
  match r with
  | .success v _ source => (step v).withSource source
  | .failure e h _ source => .failure e h none source

/-- The value of a success. -/
def unwrap? : LoadResult α → Option α
  | .success v _ _ => some v
  | .failure .. => none

/-- The message for taking the value of a failure. -/
def unwrapMessage (error : String) : String := "Cannot unwrap failed result: " ++ error

end LoadResult

end Formwork
