import Formwork.Reference.Repeatable
import Formwork.Reference.Splice

/-!
# Resolving references

A form is resolved by splicing its sub-forms and then expanding its template blocks. A resolved form
stands on its own: outside popins, none of its blocks stands for anything else.
-/

namespace Formwork

/-- How deep references may be nested when nothing else is said. -/
def defaultMaxDepth : Int := 50

/-- The form with its references resolved, asking a provider for sub-forms. -/
def Form.resolveFrom {σ : Type} (p : Provider σ) (limit : Int) (f : Form) (s : σ) :
    Except ReferenceError Form × σ :=
  match checkConflicts f.blocks with
  | .error e => (.error e, s)
  | .ok () =>
    match resolveSubForms p limit f.blocks s with
    | (.error e, s) => (.error e, s)
    | (.ok blocks, s) =>
      ((resolveRepeatables limit blocks).map fun bs => { f with blocks := bs }, s)

/-- The form with its references resolved from a catalog. -/
def Form.resolve (catalog : Catalog) (limit : Int) (f : Form) : Except ReferenceError Form :=
  (f.resolveFrom (Provider.ofCatalog catalog : Provider Unit) limit ()).1

end Formwork
