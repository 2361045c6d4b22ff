import Formwork.Proofs.Registry.Entries
import Formwork.Proofs.Yaml.Building
import Formwork.Registry.Directory

/-!
# What interrupts loading

A document that cannot be used is reported as a failed result, and a registry that is filled
from directories passes it over. Two things are raised instead (`Interrupts`): a file that is
no text, and a text that misstates a scalar. They do not depend on the kind of document.

So a registry takes up every valid document of its directories, unless a file interrupts the
loading; then it is left with the valid documents of the files before (`TakesUp`).
-/

namespace Formwork.Proofs

open Formwork Formwork.Yaml

/-! ## Documents -/

section Documents

variable {α : Type} (kind : DocumentKind α)

/-- What interrupts the loading of what a path leads to. -/
def Interrupts (t : FileTree) (p : Formwork.Path) (cause : Interruption) : Prop :=
  match t.leadsToFile? p with
  | some (.text content) => ∃ fault, cause = .scalar fault
      ∧ Misstates (String.ofList (Text.normalizeLines content.toList)) fault
  | some .bytes => cause = .notText
  | none => False

/-- Nothing interrupts the loading of what a path leads to. -/
def Uninterrupted (t : FileTree) (p : Formwork.Path) : Prop := ∀ cause, ¬Interrupts t p cause

theorem parse_eq_error_iff (content source : String) {cause : Interruption} :
    kind.parse content source = .error cause ↔
      ∃ fault, cause = .scalar fault ∧ Misstates content fault := by
  unfold DocumentKind.parse
  constructor
  · intro h
    split at h
    · cases h
    · rename_i fault hread
      cases h
      exact ⟨fault, rfl, read_eq_scalar_iff.mp hread⟩
    · cases h
    · cases h
  · rintro ⟨fault, rfl, hfault⟩
    rw [read_eq_scalar_iff.mpr hfault]

/-- Loading a text is only interrupted where the text misstates a scalar. -/
theorem load_eq_error_iff {content source : String} {cause : Interruption} :
    kind.load content source = .error cause ↔
      ∃ fault, cause = .scalar fault ∧ Misstates content fault := by
  rw [← parse_eq_error_iff kind content source, DocumentKind.load]
  cases kind.parse content source with
  | error cause => simp [Except.map]
  | ok parsed => simp [Except.map]

theorem loadFile_eq_error_iff {t : FileTree} {p : Formwork.Path} {label : String}
    {cause : Interruption} :
    kind.loadFile t p label = .error cause ↔ Interrupts t p cause := by
  unfold DocumentKind.loadFile Interrupts
  cases t.leadsToFile? p with
  | none => simp
  | some content =>
      cases content with
      | text content => exact load_eq_error_iff kind
      | bytes => simp [eq_comm]

/-- What is answered did not interrupt. -/
theorem uninterrupted_of_answers {t : FileTree} {p : Formwork.Path} (label : String)
    (h : (kind.loadFile t p label).toOption.isSome = true) : Uninterrupted t p := by
  intro cause hcause
  rw [(loadFile_eq_error_iff kind).mpr hcause] at h
  cases h

end Documents

/-! ## Directories -/

/-- A file that is offered to a registry, and the directory that it comes from. -/
structure Offer where
  source : String
  path : Formwork.Path

section Directories

variable {α : Type} (kind : RegistryKind α) (t : FileTree)

/-- The entry of the valid document of a file. -/
def Offer.taken? (o : Offer) : Option (String × RegistryEntry α) :=
  ((kind.documents.loadFile t o.path o.path.text).toOption.bind LoadResult.unwrap?).map fun d =>
    (kind.idOf (Formwork.Path.stem ((o.path.names.getLast?).getD "")) d, ⟨d, some o.source⟩)

/-- The entries of the valid documents among files. -/
def validEntries (offers : List Offer) : Ordered (RegistryEntry α) :=
  offers.filterMap (Offer.taken? kind t)

/-- What is taken up of files: all valid documents, or those before a file that interrupts. -/
inductive TakesUp : List Offer → Ordered (RegistryEntry α) → Option Interruption → Prop
  | all {offers : List Offer} (quiet : ∀ o ∈ offers, Uninterrupted t o.path) :
      TakesUp offers (validEntries kind t offers) none
  | upTo {before after : List Offer} {o : Offer} {cause : Interruption}
      (quiet : ∀ b ∈ before, Uninterrupted t b.path) (interrupts : Interrupts t o.path cause) :
      TakesUp (before ++ o :: after) (validEntries kind t before) (some cause)

variable {kind t}

theorem validEntries_cons (o : Offer) (offers : List Offer) :
    validEntries kind t (o :: offers) =
      (o.taken? kind t).toList ++ validEntries kind t offers := by
  rw [validEntries, List.filterMap_cons]
  cases o.taken? kind t <;> rfl

theorem validEntries_append (first second : List Offer) :
    validEntries kind t (first ++ second) =
      validEntries kind t first ++ validEntries kind t second := List.filterMap_append ..

theorem TakesUp.append {first second : List Offer} {es es' : Ordered (RegistryEntry α)}
    {stop : Option Interruption} (h : TakesUp kind t first es none)
    (h' : TakesUp kind t second es' stop) : TakesUp kind t (first ++ second) (es ++ es') stop := by
  cases h with
  | all quiet =>
      cases h' with
      | all quiet' =>
          rw [← validEntries_append]
          exact .all (List.forall_mem_append.mpr ⟨quiet, quiet'⟩)
      | upTo quiet' interrupts =>
          rw [← validEntries_append, ← List.append_assoc]
          exact .upTo (List.forall_mem_append.mpr ⟨quiet, quiet'⟩) interrupts

theorem candidate?_of_interrupts {p : Formwork.Path} {cause : Interruption}
    (h : Interrupts t p cause) :
    Registry.candidate? kind t p = .error cause := by
  rw [Registry.candidate?, (loadFile_eq_error_iff kind.documents).mpr h]
  rfl

theorem candidate?_of_uninterrupted (kind : RegistryKind α) (o : Offer)
    (h : Uninterrupted t o.path) :
    Registry.candidate? kind t o.path =
      .ok ((o.taken? kind t).map fun e => (e.1, e.2.document)) := by
  unfold Registry.candidate? Offer.taken?
  cases hload : kind.documents.loadFile t o.path o.path.text with
  | error cause => exact absurd ((loadFile_eq_error_iff kind.documents).mp hload) (h cause)
  | ok loaded => cases loaded <;> rfl

theorem taken?_source {o : Offer} {id : String} {e : RegistryEntry α}
    (h : o.taken? kind t = some (id, e)) : e = ⟨e.document, some o.source⟩ := by
  obtain ⟨d, -, heq⟩ := Option.map_eq_some_iff.mp h
  cases heq
  rfl

/-- A valid document does not interrupt. -/
theorem uninterrupted_of_taken {o : Offer} {entry : String × RegistryEntry α}
    (h : o.taken? kind t = some entry) : Uninterrupted t o.path := by
  obtain ⟨d, hload, -⟩ := Option.map_eq_some_iff.mp h
  obtain ⟨loaded, hloaded, -⟩ := Option.bind_eq_some_iff.mp hload
  exact uninterrupted_of_answers kind.documents _ (Option.isSome_iff_exists.mpr ⟨loaded, hloaded⟩)

/-- A document with a new id is stored under every policy. -/
theorem accept_of_absent {policy : DuplicatePolicy} {source id : String} {r : Registry α} {d : α}
    (h : r.has id = false) :
    r.accept policy source id d = some (r.store id d (some source), true) := by
  unfold Registry.accept
  rw [h, if_neg Bool.false_ne_true]

theorem TakesUp.quiet {o : Offer} (h : Uninterrupted t o.path) :
    TakesUp kind t [o] (o.taken? kind t).toList none := by
  have hall : TakesUp kind t [o] (validEntries kind t [o]) none :=
    .all (List.forall_mem_singleton.mpr h)
  rwa [validEntries_cons, validEntries, List.filterMap_nil, List.append_nil] at hall

theorem TakesUp.interrupted {o : Offer} {cause : Interruption} (h : Interrupts t o.path cause)
    (after : List Offer) : TakesUp kind t (o :: after) [] (some cause) := by
  show TakesUp kind t ([] ++ o :: after) (validEntries kind t []) (some cause)
  exact .upTo (List.forall_mem_nil _) h

/-- The documents of one of several directories, of which it has none if it is not there. -/
def documentsOf (t : FileTree) (directory : Formwork.Path) : List Formwork.Path :=
  if t.isDirectory (t.resolve directory) then t.documents (t.resolve directory) else []

/-- What one of several directories offers. -/
def offersOf (t : FileTree) (directory : Formwork.Path) : List Offer :=
  (documentsOf t directory).map (Offer.mk (t.resolve directory).text)

theorem loadEach_cons {policy : DuplicatePolicy} {d : Formwork.Path} {ds : List Formwork.Path}
    {r : Registry α}
    {counts : Ordered Nat} :
    Registry.loadEach kind t policy (d :: ds) r counts =
      match Registry.loadFiles kind t policy (t.resolve d).text (documentsOf t d) r 0 with
      | (r, .error stop) => (r, .error stop)
      | (r, .ok count) => Registry.loadEach kind t policy ds r
          (Ordered.insert counts (t.resolve d).text count) := by
  rw [Registry.loadEach]
  unfold documentsOf
  split <;> rfl

end Directories

/-! ## Two files in one directory -/

/-- The directory that the two files are in. -/
def formsDirectory : Formwork.Path := ⟨true, ["forms"]⟩

/-- A directory with two files, of which the second is a form. -/
def twoFiles (first : FileContent) : FileTree :=
  ⟨[(⟨true, ["forms", "a.yaml"]⟩, first), (⟨true, ["forms", "b.yaml"]⟩, .text "id: b\n")], [], "/"⟩

/-- The form that the second file holds. -/
def formB : Form := ⟨some "b", none, "1.0", [], none⟩

theorem documents_twoFiles (first : FileContent) :
    (twoFiles first).documents formsDirectory =
      [⟨true, ["forms", "a.yaml"]⟩, ⟨true, ["forms", "b.yaml"]⟩] := by
  have hlocate : (twoFiles first).locate formsDirectory = some formsDirectory := by rfl
  have hbelow : ((twoFiles first).entriesBelow formsDirectory).filter
      (fun names => names.getLast?.any FileTree.isDocumentName) = [["a.yaml"], ["b.yaml"]] := by rfl
  unfold FileTree.documents
  rw [hlocate]
  dsimp only
  rw [hbelow, List.mergeSort_of_pairwise (by decide)]
  rfl

theorem documentsOf_twoFiles (first : FileContent) :
    documentsOf (twoFiles first) formsDirectory =
      [⟨true, ["forms", "a.yaml"]⟩, ⟨true, ["forms", "b.yaml"]⟩] := by
  have hthere : (twoFiles first).isDirectory ((twoFiles first).resolve formsDirectory) = true := by
    rfl
  rw [documentsOf, if_pos hthere]
  exact documents_twoFiles first

theorem taken?_formB (first : FileContent) :
    Offer.taken? formRegistry (twoFiles first) ⟨"/forms", ⟨true, ["forms", "b.yaml"]⟩⟩ =
      some ("b", ⟨formB, some "/forms"⟩) := by
  have hload : ((formRegistry.documents.load (String.ofList (Text.normalizeLines "id: b\n".toList))
      "/forms/b.yaml").toOption.bind LoadResult.unwrap?) = some formB := by decide +kernel
  have htext : Formwork.Path.text ⟨true, ["forms", "b.yaml"]⟩ = "/forms/b.yaml" := by decide
  have hfile : (twoFiles first).leadsToFile? ⟨true, ["forms", "b.yaml"]⟩ =
      some (.text "id: b\n") := by rfl
  unfold Offer.taken?
  rw [DocumentKind.loadFile, hfile]
  dsimp only
  rw [htext, hload]
  rfl

/-- The files of the directory. -/
def twoOffers : List Offer :=
  [⟨"/forms", ⟨true, ["forms", "a.yaml"]⟩⟩, ⟨"/forms", ⟨true, ["forms", "b.yaml"]⟩⟩]

end Formwork.Proofs
