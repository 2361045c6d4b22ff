import Formwork.Files.Tree
import Formwork.Number.Numeral
import Formwork.Reference.Resolution
import Formwork.Text.Blank

/-!
# Settings

Settings are read from variables with a text each. A number that cannot be read counts as not given,
and one that is out of range as the nearest that is in range. A list of directories names those that
are there.
-/

namespace Formwork

/-- Variables with their texts. -/
abbrev Environment := Ordered String

namespace Environment

/-- The text of a variable without the blanks around it. -/
def trimmed (env : Environment) (name : String) : String :=
  Text.trimmed ((Ordered.get? env name).getD "")

/-- The number of a variable. -/
def number? (env : Environment) (name : String) : Option Int :=
  (Ordered.get? env name).bind Numeral.int?

/-- The directories of a variable, separated by commas, that are there. -/
def directories (env : Environment) (t : FileTree) (name : String) : List Path :=
  let parts := (Text.splitChar ',' ((Ordered.get? env name).getD "")).map Text.trimmed
  ((parts.filter (· ≠ "")).map Path.ofText).filter t.leadsToDirectory

end Environment

/-- How deep references may be nested, and how long a request for rules waits. -/
structure Settings where
  maxDepth : Int
  debounce : Nat
  deriving DecidableEq

namespace Settings

/-- How long a request waits when nothing else is said, in milliseconds. -/
def defaultDebounce : Nat := 500

/-- The settings when nothing else is said. -/
def default : Settings := ⟨defaultMaxDepth, defaultDebounce⟩

/-- The least depth that can be set. -/
def leastDepth : Int := 1

/-- The greatest depth that can be set. -/
def greatestDepth : Int := 1000

/-- The settings that variables give. -/
def ofEnvironment (env : Environment) : Settings where
  maxDepth :=
    match env.number? "FORMS_MAX_REFERENCE_DEPTH" with
    | some n => max leastDepth (min greatestDepth n)
    | none => defaultMaxDepth
  debounce :=
    match env.number? "FORMS_REHYDRATION_DEBOUNCE_MS" with
    | some n => n.toNat
    | none => defaultDebounce

end Settings

end Formwork
