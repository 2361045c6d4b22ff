import Formwork.Context.Lookup

/-!
# Error trees

Issues are handed to a client as a tree of objects that follows the parts of their paths. An object
with a message is an error. Errors that come from elsewhere may have their dotted path as a key, or
lists where instances are counted.
-/

namespace Formwork

/-- What is wrong with a value. -/
structure Issue where
  path : String
  message : String
  code : String
  deriving DecidableEq

/-- An issue as a value. -/
def Issue.write (i : Issue) : Value :=
  .object [("path", .str i.path), ("message", .str i.message), ("code", .str i.code)]

namespace ErrorTree

/-- The key that makes an object an error. -/
def messageKey : String := "message"

/-- The members of an object that is an error. -/
def asError? : Value → Option Members
  | .object ms => if Ordered.has ms messageKey then some ms else none
  | _ => none

/-- The error of an issue. -/
def entry (i : Issue) : Value :=
  .object [(messageKey, .str i.message), ("type", .str i.code)]

/-- Places an error under the parts of a path, unless there is one on the way or in its place. -/
def insert (error : Value) (tree : Members) : List String → Members
  | [] => tree
  | [part] => Ordered.insertNew tree part error
  | part :: rest =>
    let below := ((Ordered.get? tree part).bind Value.members?).getD []
    if Ordered.has below messageKey then tree
    else Ordered.insert tree part (.object (insert error below rest))

/-- The tree of issues. The first issue with a path counts. -/
def ofIssues (issues : List Issue) : Members :=
  issues.foldl (fun tree i => insert (entry i) tree (pathParts i.path)) []

/-- The error at a path. -/
def lookup (errors : Value) (path : String) : Except NumberFault (Option Members) :=
  if path == "" then .ok none
  else
    match (errors.members?.bind fun ms => Ordered.get? ms path).bind asError? with
    | some e => .ok (some e)
    | none => (errors.walk (pathParts path)).map fun v => v.bind asError?

/-- An error of a backend, with the field that it is about. -/
def ofBackend (error : Members) : Value :=
  let part (key : String) := (Ordered.get? error key).getD (.str "")
  .object [("field", part "field"),
    ("error", .object [("type", .str "server"), (messageKey, part messageKey)])]

end ErrorTree

end Formwork
