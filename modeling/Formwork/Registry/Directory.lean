import Formwork.Document.Files
import Formwork.Registry.Basic

/-!
# Filling registries from directories

The documents below a directory are taken up one after another; what is not valid is passed over. A
policy says what becomes of a document whose id is taken.

* Forms come from several directories. Each is named from the root, without names that lead up, and
  one that is not there has no forms.
* Sub-forms come from one directory, which must be there.

A file that interrupts loading leaves what was taken up before it.
-/

namespace Formwork

/-- What becomes of a document whose id is taken. -/
inductive DuplicatePolicy where
  | skip
  | overwrite
  | refuse
  deriving DecidableEq

/-- Why loading does not come to its end. -/
inductive LoadStop where
  | interrupted (cause : Interruption)
  | failed (error : LoadError)

namespace LoadStop

/-- The result of loading that may have been stopped. -/
def toResult {β : Type} : Except LoadStop β → Except Interruption (LoadResult β)
  | .ok b => .ok (.ok b none)
  | .error (.interrupted cause) => .error cause
  | .error (.failed e) => .ok (e.toResult none)

end LoadStop

namespace Registry

variable {α : Type}

/-- Takes a document up under a policy, and says whether it is stored. None when it is refused. -/
def accept (policy : DuplicatePolicy) (source : String) (r : Registry α) (id : String)
    (document : α) : Option (Registry α × Bool) :=
  if r.has id then
    match policy with
    | .skip => some (r, false)
    | .overwrite => some ((r.remove id).store id document (some source), true)
    | .refuse => none
  else some (r.store id document (some source), true)

/-- The valid document of a file, with its id. -/
def candidate? (kind : RegistryKind α) (t : FileTree) (p : Path) :
    Except Interruption (Option (String × α)) :=
  (kind.documents.loadFile t p p.text).map fun loaded =>
    loaded.unwrap?.map fun d => (kind.idOf (Path.stem ((p.names.getLast?).getD "")) d, d)

/-- Takes up the documents of files, and adds how many are stored to a count. -/
def loadFiles (kind : RegistryKind α) (t : FileTree) (policy : DuplicatePolicy) (source : String) :
    List Path → Registry α → Nat → Registry α × Except LoadStop Nat
  | [], r, count => (r, .ok count)
  | p :: rest, r, count =>
    match candidate? kind t p with
    | .error cause => (r, .error (.interrupted cause))
    | .ok none => loadFiles kind t policy source rest r count
    | .ok (some (id, d)) =>
      -- A refused document ends the loading, and what was stored stays.
      match r.accept policy source id d with
      | none => (r, .error (.failed (.duplicate kind.noun id source)))
      | some (r, stored) =>
        loadFiles kind t policy source rest r (if stored then count + 1 else count)

/-- Takes up the documents of directories, and says for each directory how many are stored. -/
def loadEach (kind : RegistryKind α) (t : FileTree) (policy : DuplicatePolicy) :
    List Path → Registry α → Ordered Nat → Registry α × Except LoadStop (Ordered Nat)
  | [], r, counts => (r, .ok counts)
  | directory :: rest, r, counts =>
    let p := t.resolve directory
    if t.isDirectory p then
      match loadFiles kind t policy p.text (t.documents p) r 0 with
      | (r, .error stop) => (r, .error stop)
      | (r, .ok count) => loadEach kind t policy rest r (Ordered.insert counts p.text count)
    else loadEach kind t policy rest r (Ordered.insert counts p.text 0)

/-- Loads directories, of which there must be one. -/
def loadDirectories (kind : RegistryKind α) (t : FileTree) (policy : DuplicatePolicy)
    (directories : List Path) (r : Registry α) :
    Registry α × Except Interruption (LoadResult (Ordered Nat)) :=
  if directories.isEmpty then (r, .ok (LoadError.noDirectories.toResult none))
  else
    let (r, counts) := loadEach kind t policy directories r []
    (r, LoadStop.toResult counts)

/-- Loads one directory, which must be there. -/
def loadDirectory (kind : RegistryKind α) (t : FileTree) (policy : DuplicatePolicy)
    (directory : Path) (r : Registry α) :
    Registry α × Except Interruption (LoadResult Nat) :=
  if t.leadsToDirectory directory then
    let (r, count) := loadFiles kind t policy directory.text (t.documents directory) r 0
    (r, LoadStop.toResult count)
  else (r, .ok ((LoadError.notADirectory directory.text).toResult none))

end Registry

end Formwork
