import Formwork.Application.App
import Formwork.Rehydration.Timeline
import Formwork.Tool.Refusal

/-!
# What tools work on

A tool works on a form that is registered or on one that comes with the call, resolved and, where
the call has one, under a delta. A session is what has been used up of the outside: the replies of
the sub-form service, and the calls to what gives rules.
-/

namespace Formwork

/-- What gives rules: the answer to each call, by its number. -/
abbrev RuleScript := Nat → ScriptedResponse

/-- What the tools have used up so far. -/
structure Session where
  /-- The contexts that rules were asked for, oldest first. -/
  calls : List Members
  remote : Exchange

/-- A form that is registered under an id, or else one that comes as a document. -/
structure Target where
  form : Option String
  document : Option Value

namespace Target

/-- What messages call the document of a call. -/
def inlineSource : String := "<inline-descriptor>"

/-- The form that is aimed at. -/
def form? (target : Target) (forms : Registry Form) : Except Refusal Form :=
  match nonEmpty? target.form, target.document with
  | some id, _ =>
    match forms.lookup id with
    | some f => .ok f
    | none => .error (.unknownTarget id forms.ids)
  | none, some v =>
    match formKind.ofDatum (some inlineSource) (some inlineSource) (Datum.ofValue v) with
    | .success f _ _ => .ok f
    | .failure e _ _ _ => .error (.notLoaded e)
  | none, none => .error .noTarget

end Target

namespace App

variable {ρ : Type}

/-- Reads the delta of a call and merges it. -/
def underDelta (form : Form) : Option Value → Except Refusal Form
  | none => .ok form
  | some v =>
    match RuleDelta.read (Datum.ofValue v) with
    | .ok delta => .ok (form.merge delta)
    | .error faults => .error (.invalidDelta ⟨RuleDelta.model, faults⟩)

/-- The form of a call: resolved, and under its delta. -/
def prepare (a : App ρ) (target : Target) (delta : Option Value) (s : Session) :
    Except Refusal Form × Session :=
  match target.form? a.forms with
  | .error r => (.error r, s)
  | .ok form =>
    match form.resolveFrom a.provider a.settings.maxDepth s.remote with
    | (.error e, remote) => (.error (.reference e), { s with remote })
    | (.ok resolved, remote) => (underDelta resolved delta, { s with remote })

/-- Does something with the form of a call, if there is an application. -/
def onForm {α : Type} (app : Option (App ρ)) (target : Target) (delta : Option Value)
    (act : Form → Except ToolStop α) (s : Session) : Except ToolStop α × Session :=
  match app with
  | none => (.error (.refused .unavailable), s)
  | some a =>
    match a.prepare target delta s with
    | (.error r, s) => (.error (.refused r), s)
    | (.ok form, s) => (act form, s)

end App

end Formwork
