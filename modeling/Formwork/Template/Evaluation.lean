import Formwork.Template.Node
import Formwork.Template.Operand

/-!
# Rendering a template

A template is rendered against a context, which is an object, inside the scopes of the `each`
blocks around it. Each scope holds its item, the item's position and the number of items. A path
that leads nowhere is undefined, and so is every path that goes on from there.

A number literal on its own is put out as it is read. As an operand, a decimal past the doubles is a
name that nothing has.
-/

namespace Formwork.Template

/-- The scope of one item. -/
structure ItemScope where
  level : Nat
  item : Value
  index : Nat
  count : Nat

/-- What a template is rendered against. -/
structure Env where
  context : Members
  scopes : List ItemScope

/-- The open scope of a level. -/
def Env.scope? (env : Env) (level : Nat) : Option ItemScope :=
  env.scopes.find? (·.level == level)

/-- What a path starts from. -/
def Env.base (env : Env) : Base → Operand
  | .context => .value (.object env.context)
  | .item level => ((env.scope? level).map fun s => .value s.item).getD .undefined
  | .index level => ((env.scope? level).map fun s => .value (.int s.index)).getD .undefined
  | .isFirst level =>
    ((env.scope? level).map fun s => .value (.bool (s.index == 0))).getD .undefined
  | .isLast level =>
    ((env.scope? level).map fun s => .value (.bool (s.index + 1 == s.count))).getD .undefined

/-- One step into an operand: a member of an object, an item of a list, a character of a text, or
the length of a list or text. -/
def Operand.step (o : Operand) (s : Step) : Operand :=
  match o, s with
  | .value (.object ms), .key name =>
    -- A wide character of a path is read as two halves, which no key of a context has.
    if name.toList.any isWide then .undefined else ofOption (Ordered.get? ms name)
  | .value (.list xs), .key "length" => .value (.int xs.length)
  | .value (.list xs), .index n => ofOption xs[n]?
  | .value (.str t), .key "length" => .value (.int t.length)
  | .value (.str t), .index n => ofOption (t.toList[n]?.map fun c => .str c.toString)
  | _, _ => .undefined

/-- What a reference leads to. -/
def Env.follow (env : Env) (r : Reference) : Operand := r.steps.foldl Operand.step (env.base r.base)

/-- The operand that the value of a number literal makes. -/
def Operand.ofNumber : Value → Except CallFault Operand
  | .float (.infinity _) => .error .infiniteLiteral
  | v => .ok (.value v)

mutual

/-- The operand of an expression. Arguments are evaluated before the call, from left to right. -/
def Expr.eval (env : Env) : Expr → Except CallFault Operand
  | .call h args => do h.call (← Expr.evalAll env args)
  | .literal text => .ok (.ofLiteral text)
  | .number text =>
    match numberLiteral text with
    | .ok v => Operand.ofNumber v
    | .error _ => .ok .undefined
  | .bool b => .ok (.value (.bool b))
  | .absent => .ok (.value .null)
  | .reference r => .ok (env.follow r)

/-- The operands of the arguments of a call. -/
def Expr.evalAll (env : Env) : List Expr → Except CallFault (List Operand)
  | [] => .ok []
  | e :: es => do
    let o ← e.eval env
    let os ← Expr.evalAll env es
    .ok (o :: os)

end

/-- The operand that an expression puts out. -/
def Expr.output (env : Env) : Expr → Except CallFault Operand
  | .number text => .ok (.ofOption (numberLiteral text).toOption)
  | e => e.eval env

/-- The environment of each item of an `each` block. -/
def Env.each (env : Env) (level : Nat) (items : List Value) : List Env :=
  items.mapIdx fun i x => { env with scopes := ⟨level, x, i, items.length⟩ :: env.scopes }

mutual

/-- The output of one node. -/
def Node.render (env : Env) : Node → Except CallFault String
  | .text s => .ok s
  | .output e => do (← e.output env).render
  | .choose negated e body otherwise => do
    let o ← e.eval env
    if (← o.isBlockTruthy) != negated then renderAll env body else renderAll env otherwise
  | .each level e body otherwise => do
    let o ← e.eval env
    -- What is no list or object has no items, so the other part is rendered.
    match o.items with
    | [] => renderAll env otherwise
    | items =>
      (env.each level items).foldlM (fun out inner => (renderAll inner body).map (out ++ ·)) ""

/-- The output of nodes one after another. -/
def renderAll (env : Env) : List Node → Except CallFault String
  | [] => .ok ""
  | n :: ns => do
    let s ← n.render env
    let rest ← renderAll env ns
    .ok (s ++ rest)

end

end Formwork.Template
