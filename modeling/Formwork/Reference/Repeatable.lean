import Formwork.Reference.Error
import Formwork.Reference.Suffix

/-!
# Expanding template blocks

A block that names a template takes over the fields of that block, then those of the template that
the template names, and so on along the chain. In a repeatable block each field that is taken over
becomes a member of a group: of its own, if it declares one, else of the one named for the block.
Its id is then the group's id, a point and its own id.

Every block on a chain is kept for reference only.
-/

namespace Formwork

namespace Repeatable

/-- The block that a reference names, if it can serve as a template. -/
def target (blocks : List Block) (ref referencing : String) : Except ReferenceError Block :=
  match blocks.find? (·.id == ref) with
  | none => .error (.missingTemplate ref referencing .unknown)
  | some t =>
    if t.repeatable then .error (.missingTemplate ref referencing .repeatable) else .ok t

/-- The templates on the chain that goes on from a block, with the ids before it from the innermost
out. -/
def chain (blocks : List Block) (limit : Int) (path : List String) (current : Block) :
    Except ReferenceError (List Block) :=
  match current.template? with
  | none => .ok []
  | some ref =>
    if path.contains ref then .error (.cyclic ref (path.reverse ++ [ref]))
    -- The block itself is on the path, so the chain may have `limit` templates.
    else if _ : limit < path.length then .error (.depthExceeded ref path.length limit)
    else do
      let t ← target blocks ref current.id
      let rest ← chain blocks limit (t.id :: path) t
      .ok (t :: rest)
termination_by (limit + 1 - path.length).toNat
decreasing_by simp only [List.length_cons]; omega

/-- The field as a member of a group of the block with this id. -/
def intoGroup (blockId : String) (f : Field) : Field :=
  let group := f.group?.getD blockId
  { f with id := group ++ "." ++ f.id, repeatableGroupId := some group }

/-- The templates that a block takes over. Popins take over none. -/
def templates (blocks : List Block) (limit : Int) (b : Block) :
    Except ReferenceError (List Block) :=
  if b.popin then .ok [] else chain blocks limit [b.id] b

/-- The fields that a block takes over from its templates. -/
def takenOver (b : Block) (templates : List Block) : List Field :=
  let fields := templates.flatMap Block.fields
  if b.repeatable then fields.map (intoGroup b.id) else fields

/-- The block with the fields of its templates. `used` are the ids of all template blocks. -/
def expand (used : List String) (b : Block) (templates : List Block) : Block :=
  -- A popin keeps its reference, since it takes nothing over.
  { b with
    fields := b.fields ++ takenOver b templates
    repeatableBlockRef := if b.popin || b.template?.isNone then b.repeatableBlockRef else none
    templateOnly := b.templateOnly || used.contains b.id }

end Repeatable

/-- The blocks with every template expanded. -/
def resolveRepeatables (limit : Int) (blocks : List Block) :
    Except ReferenceError (List Block) := do
  let chains ← blocks.mapM (Repeatable.templates blocks limit)
  let used := chains.flatten.map Block.id
  .ok (List.zipWith (Repeatable.expand used) blocks chains)

end Formwork
