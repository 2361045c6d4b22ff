import Formwork.Proofs.Document.Valid
import Formwork.Proofs.Schema.Range
import Formwork.Proofs.Schema.Steps
import Formwork.Tool.Call

/-!
# What keeps a form from being compiled

The first step of compiling that is not taken is what compiling fails with. Nearly always it
is a malformed rule, which the error names. But a parameter may be out of the range of its
rule, and the bounds of a group out of that of lengths (`CompileStep.OutOfRange`); then the
tools that compile have no answer at all.
-/

namespace Formwork

/-- What a step of compiling is about is out of range. -/
def CompileStep.OutOfRange (fault : RangeFault) : CompileStep → Prop
  | .rule _ r => r.OutOfRange fault
  | .bounds owner => (∃ n ∈ owner.minInstances.toList ++ owner.maxInstances.toList, 2 ^ 64 ≤ n)
      ∧ fault = .countTooLarge

end Formwork

namespace Formwork.Proofs

open Formwork

/-! ## Who is to blame -/

section Blame

variable {α : Type} {place : RulePlace} {p : Option Parameter}

end Blame

/-! ## The whole form -/

section Whole

variable {validators : Ordered CustomValidator} {blocks : List Block}

end Whole

/-! ## Tools -/

end Formwork.Proofs

namespace Formwork

end Formwork

namespace Formwork.Proofs

open Formwork

section Tools

variable {app : Option (App RuleScript)} {call : ToolCall} {target : Target}
  {delta : Option Value} {s : Session} {act : Form → Except ToolStop Value}
  {stop : ToolInterruption} {d : Form}

end Tools

end Formwork.Proofs
