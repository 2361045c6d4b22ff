import Formwork.Rehydration.Coordinator

/-!
# A coordinator in time

Time moves only when it is told to. A request waits for a fixed span and its answer takes as long as
the provider's script says; the script gives an answer for each call by its number. Whatever is due
happens in the order of time, and what is due at one time in the order in which it was arranged.
-/

namespace Formwork

/-- An answer of a scripted provider, and how long it takes. -/
structure ScriptedResponse where
  delay : Nat
  response : Response

/-- Something that will happen. -/
structure Appointment where
  due : Nat
  event : RehydrationEvent

/-- A coordinator, the time, and what will happen. -/
structure Timeline where
  now : Nat
  coordinator : Coordinator
  appointments : List Appointment

namespace Timeline

/-- The first of the earliest appointments, and the others. -/
def earliest? : List Appointment → Option (Appointment × List Appointment)
  | [] => none
  | a :: rest =>
    match earliest? rest with
    | none => some (a, [])
    | some (b, others) => if a.due ≤ b.due then some (a, rest) else some (b, a :: others)

/-- Issues a request, which waits for `debounce`. -/
def submit (t : Timeline) (debounce : Nat) (context : Members) : Timeline :=
  let c := t.coordinator.submit context
  { t with
    coordinator := c
    appointments := t.appointments ++ [⟨t.now + debounce, .expire c.sequence⟩] }

/-- Keeps an appointment. A request that goes out arranges its answer. -/
def keep (s : RehydrationSetup) (script : Nat → ScriptedResponse) (t : Timeline) (a : Appointment)
    (others : List Appointment) : Timeline :=
  let c := t.coordinator.step s a.event
  let answers := (c.calls.drop t.coordinator.calls.length).mapIdx fun i r =>
    let scripted := script (t.coordinator.calls.length + i)
    ⟨a.due + scripted.delay, .answer r.sequence scripted.response⟩
  ⟨max t.now a.due, c, others ++ answers⟩

/-- Keeps what is due by a time, or all, at most `fuel` appointments. -/
def keepDue (s : RehydrationSetup) (script : Nat → ScriptedResponse) (until? : Option Nat) :
    (fuel : Nat) → Timeline → Timeline
  | 0, t => t
  | fuel + 1, t =>
    match earliest? t.appointments with
    | none => t
    | some (a, others) =>
      if until?.all (a.due ≤ ·) then keepDue s script until? fuel (t.keep s script a others)
      else t

/-- More appointments than can be kept: each request has two. -/
def bound (t : Timeline) : Nat := 2 * t.appointments.length + 1

/-- Moves time on. -/
def advance (s : RehydrationSetup) (script : Nat → ScriptedResponse) (span : Nat) (t : Timeline) :
    Timeline :=
  { keepDue s script (some (t.now + span)) t.bound t with now := t.now + span }

/-- Moves time on until every request has ended. -/
def settle (s : RehydrationSetup) (script : Nat → ScriptedResponse) (t : Timeline) : Timeline :=
  keepDue s script none t.bound t

/-- Closes the coordinator. -/
def close (t : Timeline) : Timeline :=
  { t with coordinator := t.coordinator.cancel.finish, appointments := [] }

end Timeline

end Formwork
