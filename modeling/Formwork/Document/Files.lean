import Formwork.Document.Loading
import Formwork.Files.Tree
import Formwork.Text.Lines

/-!
# Loading documents from files

A file that is there and is a text is loaded as that text, with its lines ended in one way. A file
that is no text interrupts the loading.
-/

namespace Formwork.DocumentKind

variable {α : Type}

/-- Loads the document that a path leads to. The label is what messages call it. -/
def loadFile (kind : DocumentKind α) (t : FileTree) (p : Path) (label : String) :
    Except Interruption (LoadResult α) :=
  match t.leadsToFile? p with
  | some (.text content) =>
    kind.load (String.ofList (Text.normalizeLines content.toList)) label
  | some .bytes => .error .notText
  | none =>
    let e : LoadError :=
      if t.leadsToDirectory p then .notAFile label else .fileNotFound kind.noun label
    .ok (e.toResult (some label))

end Formwork.DocumentKind
