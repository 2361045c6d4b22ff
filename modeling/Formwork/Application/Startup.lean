import Formwork.Application.App
import Formwork.Application.Builtin
import Formwork.Registry.Directory
import Formwork.Remote.Rules

/-!
# Startup

An application starts with the built-in documents and those of the directories that its variables
name; a later document takes the place of an earlier one with its id. The built-in forms must be
there. A directory of sub-forms that cannot be used is passed over.
-/

namespace Formwork

/-- Why an application does not start. -/
inductive StartupError where
  | noBuiltinForms (directory : String)
  | formsNotLoaded (error : String)
  | interrupted (cause : Interruption)

/-- The message of a startup error, where it has one of its own. -/
def StartupError.message? : StartupError → Option String
  | .noBuiltinForms directory =>
    some ("Built-in forms directory not found: " ++ directory ++
      "\nThis indicates a broken installation. Please reinstall forms-mcp.")
  | .formsNotLoaded error =>
    some ("Failed to load forms: " ++ error ++
      "\nServer cannot start without forms. Please check:" ++
      "\n1. Built-in templates directory is intact" ++
      "\n2. FORMS_DESCRIPTOR_PATHS (if set) contains valid descriptor documents")
  | .interrupted _ => none

namespace Startup

/-- The forms that an application starts with. -/
def forms (t : FileTree) (top : Path) (env : Environment) :
    Except StartupError (Registry Form) :=
  let builtin := top.append [Builtin.formsName]
  if t.leadsToDirectory builtin then
    let directories := builtin :: env.directories t "FORMS_DESCRIPTOR_PATHS"
    match Registry.loadDirectories formRegistry t .overwrite directories .empty with
    | (_, .error cause) => .error (.interrupted cause)
    | (_, .ok (.failure e _ _ _)) => .error (.formsNotLoaded e)
    | (r, .ok (.success ..)) => .ok r
  else .error (.noBuiltinForms builtin.text)

/-- Takes up the sub-forms of one more directory. -/
def addSubForms (t : FileTree) (r : Registry SubForm) (directory : Path) :
    Except StartupError (Registry SubForm) :=
  match Registry.loadDirectory subFormRegistry t .overwrite directory r with
  | (_, .error cause) => .error (.interrupted cause)
  | (r, .ok _) => .ok r

/-- The sub-forms that an application starts with. -/
def subForms (t : FileTree) (top : Path) (env : Environment) :
    Except StartupError (Registry SubForm) :=
  (top.append [Builtin.subFormsName] :: env.directories t "FORMS_SUBFORM_PATHS").foldlM
    (addSubForms t) .empty

/-- The service at an address, where an empty address means none. -/
def rules? (url : String) : Option RuleService :=
  if url = "" then none else some ⟨url, [], defaultTimeLimit⟩

/-- The application that variables set up. An address for sub-forms without the place for the id is
passed over. -/
def app (t : FileTree) (top : Path) (env : Environment) :
    Except StartupError (App RuleService) := do
  let forms ← forms t top env
  let subForms ← subForms t top env
  .ok
    { forms, subForms
      remote := SubFormService.ofTemplate? (env.trimmed "FORMS_SUBFORM_URL") []
      rules := rules? (env.trimmed "FORMS_RULES_URL")
      settings := .ofEnvironment env }

end Startup

end Formwork
