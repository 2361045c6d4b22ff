import Formwork.Application.Settings
import Formwork.Registry.Basic
import Formwork.Rehydration.Coordinator
import Formwork.Remote.SubForms

/-!
# Applications

An application has forms and sub-forms, perhaps a service for further sub-forms, and perhaps
something that gives rules. What gives rules is left open: the address of a service at startup,
a script of answers where it runs.
-/

namespace Formwork

/-- What a form application works with; `ρ` is what gives rules. -/
structure App (ρ : Type) where
  forms : Registry Form
  subForms : Registry SubForm
  remote : Option SubFormService
  rules : Option ρ
  settings : Settings

/-- Why an application has no coordinator for a form. -/
inductive CoordinatorFault where
  | noRules
  | schema (error : SchemaError)
  deriving DecidableEq

/-- The message of a fault. -/
def CoordinatorFault.message : CoordinatorFault → String
  | .noRules => noRulesMessage
  | .schema e => e.message

namespace App

variable {ρ : Type}

/-- Where sub-forms come from: the registry, then the service. -/
def provider (a : App ρ) : Provider Exchange :=
  match a.remote with
  | none => .ofCatalog a.subForms.documents
  | some service => .chain [.ofCatalog a.subForms.documents, service.provider]

/-- What a coordinator for a form is set up with. -/
def setup (form : Form) : RehydrationSetup := ⟨form, []⟩

/-- A coordinator for a resolved form. -/
def coordinator (a : App ρ) (form : Form) (context : Members) :
    Except CoordinatorFault Coordinator :=
  match a.rules with
  | none => .error .noRules
  | some _ => (Coordinator.start (setup form) context).mapError .schema

end App

end Formwork
