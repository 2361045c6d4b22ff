import Formwork.Document.Delta

/-!
# Merging rule deltas

A delta overlays the validation rules and status templates of a form, by the ids of its fields and
blocks. The last entry for an id counts. What an entry does not mention stays as it is: a rule list
is replaced as a whole, and of a status only the keys that the entry sets, be it to null. Entries
without a target have no effect.
-/

namespace Formwork

namespace Status

/-- The status without any template. -/
def empty : Status := ⟨.unset, .unset, .unset⟩

/-- The status with only the templates that it has, or none when it has none. -/
def settled? (s : Status) : Option Status :=
  let kept (e : StatusEntry) := StatusEntry.ofText? e.text?
  let s : Status := ⟨kept s.hidden, kept s.disabled, kept s.readonly⟩
  if s = empty then none else some s

/-- Overlays a status key by key. -/
def overlay (base top : Status) : Status :=
  ⟨base.hidden.overlay top.hidden, base.disabled.overlay top.disabled,
    base.readonly.overlay top.readonly⟩

/-- The status after an overlay, if there is one. -/
def merge? (base top : Option Status) : Option Status :=
  match top with
  | none => base
  | some t => ((base.getD empty).overlay t).settled?

end Status

namespace RuleDelta

/-- What counts for a field: the last entry with its id. -/
def field? (d : RuleDelta) (id : String) : Option FieldRule := d.fields.reverse.find? (·.id == id)

/-- What counts for a block: the last entry with its id. -/
def block? (d : RuleDelta) (id : String) : Option BlockRule := d.blocks.reverse.find? (·.id == id)

end RuleDelta

/-- The field under a delta. -/
def Field.merge (f : Field) (d : RuleDelta) : Field :=
  match d.field? f.id with
  | none => f
  | some rule =>
    { f with
      validation := rule.validation.getD f.validation
      status := Status.merge? f.status rule.status }

/-- The block under a delta. -/
def Block.merge (b : Block) (d : RuleDelta) : Block :=
  { b with
    fields := b.fields.map fun f => f.merge d
    status := Status.merge? b.status ((d.block? b.id).bind BlockRule.status) }

/-- The form under a delta. -/
def Form.merge (f : Form) (d : RuleDelta) : Form :=
  { f with blocks := f.blocks.map fun b => b.merge d }

end Formwork
