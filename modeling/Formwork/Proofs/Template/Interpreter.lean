import Formwork.Proofs.Template.PlainText
import Formwork.Template.Evaluation

/-!
# A reference interpreter for templates

A template is read here without scopes: a path says how many scopes it drops and what it
takes from the one that is left, and blocks are trees. The interpreter carries the scopes
around it as a chain, innermost first. It says in a few lines what rendering means: an
`each` block puts its body out once for each item, with the item's scope in front of the
chain, or else its other part in the chain around it; the other blocks choose a part and
leave the chain alone.

Between two parts of a template there is always a text, which may be empty, and there is
one before the first and after the last part.
-/

namespace Formwork.Proofs

open Formwork Formwork.Template

/-! ## Scopes and paths -/

/-- The scope of one item: the item, its position and the number of items. -/
structure Scope where
  item : Value
  index : Nat
  count : Nat

/-- The scopes of items. -/
def scopesOf (items : List Value) : List Scope :=
  items.mapIdx fun i x => ⟨x, i, items.length⟩

/-- What a path starts from: the item of a scope, or a name with an at sign. -/
inductive PathStart where
  | item
  | binding (name : String)
  deriving DecidableEq

/-- What a start is in a chain of scopes. Without scopes, everything is read from the context, and
so are the names with an at sign that are no loop positions. -/
def PathStart.eval (context : Members) : List Scope → PathStart → Operand
  | [], .item => .value (.object context)
  | s :: _, .item => .value s.item
  | s :: _, .binding "@index" => .value (.int s.index)
  | s :: _, .binding "@first" => .value (.bool (s.index == 0))
  | s :: _, .binding "@last" => .value (.bool (s.index + 1 == s.count))
  | _, .binding name => (Operand.value (.object context)).step (.key name)

/-- A path: how many scopes it drops, what it starts from then, and the steps from there. -/
structure Path where
  ups : Nat
  start : PathStart
  steps : List Step
  deriving DecidableEq

/-- What a path leads to. -/
def Path.eval (context : Members) (chain : List Scope) (p : Path) : Operand :=
  p.steps.foldl Operand.step (p.start.eval context (chain.drop p.ups))

/-! ## Terms -/

/-- An expression with paths in it. -/
inductive Term where
  | call (helper : Helper) (args : List Term)
  | literal (text : String)
  /-- A number literal with its value. -/
  | number (text : String) (value : Value) (h : numberLiteral text = .ok value)
  | bool (b : Bool)
  | absent
  | path (p : Path)

mutual

/-- The operand of a term. Arguments are evaluated before the call, from left to right. -/
def Term.eval (context : Members) (chain : List Scope) : Term → Except Template.CallFault Operand
  | .call helper args => do helper.call (← Term.evalAll context chain args)
  | .literal text => .ok (.ofLiteral text)
  | .number _ value _ => Operand.ofNumber value
  | .bool b => .ok (.value (.bool b))
  | .absent => .ok (.value .null)
  | .path p => .ok (p.eval context chain)

/-- The operands of the arguments of a call. -/
def Term.evalAll (context : Members) (chain : List Scope) :
    List Term → Except Template.CallFault (List Operand)
  | [] => .ok []
  | t :: ts => do
    let o ← t.eval context chain
    let os ← Term.evalAll context chain ts
    .ok (o :: os)

end

/-- The operand that a term puts out: a number literal on its own is its value. -/
def Term.output (context : Members) (chain : List Scope) : Term → Except Template.CallFault Operand
  | .number _ value _ => .ok (.value value)
  | t => t.eval context chain

mutual

/-- No path of a term drops more scopes than there are. -/
def Term.InScope (depth : Nat) : Term → Prop
  | .call _ args => Term.AllInScope depth args
  | .path p => p.ups ≤ depth
  | _ => True

/-- No path of the terms drops more scopes than there are. -/
def Term.AllInScope (depth : Nat) : List Term → Prop
  | [] => True
  | t :: ts => t.InScope depth ∧ Term.AllInScope depth ts

end

/-! ## Templates -/

mutual

/-- A template: texts with parts between them. -/
inductive Body where
  | last (text : PlainText)
  | cons (text : PlainText) (part : Part) (rest : Body)

/-- A part of a template. -/
inductive Part where
  | output (t : Term)
  /-- The body if the condition holds, or fails when `negated`; the other part otherwise. -/
  | choose (negated : Bool) (condition : Term) (body : Body) (otherwise : Else)
  /-- The body for each item; the other part when there is none. -/
  | each (items : Term) (body : Body) (otherwise : Else)

/-- The other part of a block, if it has one. -/
inductive Else where
  | none
  | some (body : Body)

end

mutual

/-- The output of a template. -/
def Body.eval (context : Members) (chain : List Scope) : Body → Except Template.CallFault String
  | .last t => .ok t.text
  | .cons t part rest => do
    let out ← part.eval context chain
    let more ← rest.eval context chain
    .ok (t.text ++ out ++ more)

/-- The output of a part. -/
def Part.eval (context : Members) (chain : List Scope) : Part → Except Template.CallFault String
  | .output t => do (← t.output context chain).render
  | .choose negated condition body otherwise => do
    let o ← condition.eval context chain
    if (← o.isBlockTruthy) != negated then body.eval context chain
    else otherwise.eval context chain
  | .each items body otherwise => do
    let o ← items.eval context chain
    match scopesOf o.items with
    | [] => otherwise.eval context chain
    | scopes => do
      let outs ← scopes.mapM fun s => body.eval context (s :: chain)
      .ok (String.join outs)

/-- The output of the other part of a block, which is empty if the block has none. -/
def Else.eval (context : Members) (chain : List Scope) : Else → Except Template.CallFault String
  | .none => .ok ""
  | .some body => body.eval context chain

end

mutual

/-- No path of a template drops more scopes than there are around it. -/
def Body.InScope (depth : Nat) : Body → Prop
  | .last _ => True
  | .cons _ part rest => part.InScope depth ∧ rest.InScope depth

/-- Only the body of an `each` block has one scope more around it. -/
def Part.InScope (depth : Nat) : Part → Prop
  | .output t => t.InScope depth
  | .choose _ condition body otherwise =>
    condition.InScope depth ∧ body.InScope depth ∧ otherwise.InScope depth
  | .each items body otherwise =>
    items.InScope depth ∧ body.InScope (depth + 1) ∧ otherwise.InScope depth

def Else.InScope (depth : Nat) : Else → Prop
  | .none => True
  | .some body => body.InScope depth

end

/-! ## Settled templates -/

mutual

/-- A template with its texts changed, the last one in its own way. -/
def Body.mapTexts (f final : PlainText → PlainText) : Body → Body
  | .last t => .last (final t)
  | .cons t part rest => .cons (f t) (part.mapTexts f) (rest.mapTexts f final)

def Part.mapTexts (f : PlainText → PlainText) : Part → Part
  | .output t => .output t
  | .choose negated condition body otherwise =>
    .choose negated condition (body.mapTexts f f) (otherwise.mapTexts f)
  | .each items body otherwise => .each items (body.mapTexts f f) (otherwise.mapTexts f)

def Else.mapTexts (f : PlainText → PlainText) : Else → Else
  | .none => .none
  | .some body => .some (body.mapTexts f f)

end

/-- The template with every line end written as a line feed, and without a line feed at its end. -/
def Body.settled (b : Body) : Body :=
  b.mapTexts PlainText.lines PlainText.final

end Formwork.Proofs
