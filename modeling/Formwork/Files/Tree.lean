import Formwork.Files.Path

/-!
# File trees

The documents of a form library lie in directories. A file tree says what is where: the text of each
file, if it is one, and the directories, of which those that lead to a file need not be listed. Files
and directories are listed from the root; a path that is not rooted starts from where one is.
-/

namespace Formwork

/-- What a file holds: a text, or bytes that are none. -/
inductive FileContent where
  | text (content : String)
  | bytes
  deriving DecidableEq

/-- Files, and directories that may be empty. -/
structure FileTree where
  files : List (Path × FileContent)
  directories : List Path
  /-- The directory where one is, as it is written. -/
  here : String

namespace FileTree

/-- The tree with nothing in it. -/
def empty : FileTree := ⟨[], [], "/"⟩

/-- Two trees side by side. One stays where one is in the first. -/
def append (t u : FileTree) : FileTree :=
  ⟨t.files ++ u.files, t.directories ++ u.directories, t.here⟩

/-- The paths that are listed. -/
def listed (t : FileTree) : List Path := t.files.map Prod.fst ++ t.directories

/-- How a path goes on below another. -/
def below? (top p : Path) : Option (List String) :=
  if top.rooted = p.rooted then top.names.isPrefixOf? p.names else none

/-- Where one is, from the root. -/
def place (t : FileTree) : Path := ⟨true, (Path.ofText t.here).names.foldl Path.follow []⟩

/-- The names that a path goes on from. -/
def start (t : FileTree) (p : Path) : List String := if p.rooted then [] else t.place.names

/-- A path from the root, without names that lead up. -/
def resolve (t : FileTree) (p : Path) : Path := ⟨true, p.names.foldl Path.follow (t.start p)⟩

/-- Whether there is a directory at a path from the root. Where one is there is one, and above. -/
def isDirectory (t : FileTree) (p : Path) : Bool :=
  t.directories.contains p || t.listed.any (fun q => (below? p q).any fun rest => !rest.isEmpty) ||
    (below? p t.place).isSome

/-- The file at a path. -/
def file? (t : FileTree) (p : Path) : Option FileContent := t.files.lookup p

/-- Follows names one by one. What leads up leads up from a directory. -/
def locateFrom (t : FileTree) (names : List String) : List String → Option Path
  | [] => some ⟨true, names⟩
  | name :: rest =>
    if name == Path.up && !t.isDirectory ⟨true, names⟩ then none
    else locateFrom t (Path.follow names name) rest

/-- Where a path leads, from the root and without names that lead up. -/
def locate (t : FileTree) (p : Path) : Option Path := t.locateFrom (t.start p) p.names

/-- Whether a path leads to a directory. -/
def leadsToDirectory (t : FileTree) (p : Path) : Bool := (t.locate p).any t.isDirectory

/-- The file that a path leads to. -/
def leadsToFile? (t : FileTree) (p : Path) : Option FileContent := (t.locate p).bind t.file?

/-- A list from its first element on, one longer each time. -/
def stages (names : List String) : List (List String) :=
  (List.range names.length).map fun n => names.take (n + 1)

/-- How one goes on from a directory to all that lies below it. -/
def entriesBelow (t : FileTree) (p : Path) : List (List String) :=
  (t.listed.flatMap fun q => ((below? p q).map stages).getD []).eraseDups

/-- The endings of the names of documents. -/
def documentEndings : List String := [".json", ".yaml", ".yml"]

/-- Whether a name is the name of a document. -/
def isDocumentName (name : String) : Bool := documentEndings.any fun e => Text.endsWith e name

/-- The order of ways to files: name by name, and what leads further comes later. -/
def precedes : List String → List String → Bool
  | [], _ => true
  | _ :: _, [] => false
  | a :: as, b :: bs => a < b || a == b && precedes as bs

/-- The documents below a directory, in the order of their names along the way. Whatever is called
like a document is one, be it a directory. -/
def documents (t : FileTree) (directory : Path) : List Path :=
  match t.locate directory with
  | none => []
  | some p =>
    let found := (t.entriesBelow p).filter fun names => names.getLast?.any isDocumentName
    (found.mergeSort precedes).map directory.append

end FileTree

end Formwork
