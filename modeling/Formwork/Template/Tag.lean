import Formwork.Template.Expression

/-!
# Tags

A template is literal text with mustaches in it: a mustache starts at the leftmost pair of opening
braces and ends at the nearest pair of closing ones. Read from left to right, mustaches become tags
that print a value, open, split or close a block. The reader keeps the blocks that are open:

* a closing tag must name the innermost open block, and an `else` must stand inside some block;
* the body of an `each` block is a scope of its own, and its `else` part is not;
* each scope has a level, counted in the order in which `each` blocks are opened.
-/

namespace Formwork.Template

open Formwork.Text

/-- A part of a template source. -/
inductive Piece where
  | text (cs : List Char)
  | mustache (content : List Char)
  deriving DecidableEq

/-- Cuts a source into texts and mustaches. Every mustache is at least four characters long, so the
length of the source bounds the steps. -/
def pieces (source : List Char) : List Piece := go source.length source
where
  go : Nat → List Char → List Piece
    | 0, cs => [.text cs]
    | fuel + 1, cs =>
      match breakAt? "\x7b\x7b".toList cs with
      | none => [.text cs]
      | some (before, afterOpening) =>
        match breakAt? "\x7d\x7d".toList afterOpening with
        | none => [.text cs]
        | some (content, after) => .text before :: .mustache content :: go fuel after

/-- A tag of a template, with its expression resolved. -/
inductive Tag where
  | text (s : String)
  | output (e : Expr)
  /-- Opens a block that is rendered if the condition holds, or if it does not. -/
  | openIf (negated : Bool) (condition : Expr)
  /-- Opens a block that is rendered for each item, as the scope of this level. -/
  | openEach (level : Nat) (items : Expr)
  | otherwise
  | closeIf
  | closeEach

/-- The blocks that can be opened. -/
inductive BlockKind where
  | whenTrue
  | unless
  | each (level : Nat)
  deriving DecidableEq

namespace BlockKind

/-- The name of a block in its tags. -/
def name : BlockKind → String
  | .whenTrue => "if"
  | .unless => "unless"
  | .each _ => "each"

/-- The tag that closes a block. -/
def closingTag : BlockKind → Tag
  | .each _ => .closeEach
  | _ => .closeIf

end BlockKind

/-- An open block; `split` once its `else` has been read. -/
structure OpenBlock where
  kind : BlockKind
  split : Bool
  deriving DecidableEq

/-- The level of the scope that an open block adds, which its `else` part does not have. -/
def OpenBlock.scope? (b : OpenBlock) : Option Nat :=
  match b.kind, b.split with
  | .each level, false => some level
  | _, _ => none

/-- The state of the reader: the open blocks, innermost first, and the number of scopes so far. -/
structure Reading where
  blocks : List OpenBlock
  opened : Nat

namespace Reading

def start : Reading := ⟨[], 0⟩

/-- The levels of the open scopes, innermost first. -/
def scopes (r : Reading) : List Nat := r.blocks.filterMap OpenBlock.scope?

/-- The state inside one more block. -/
def enter (r : Reading) (kind : BlockKind) : Reading :=
  { r with blocks := ⟨kind, false⟩ :: r.blocks }

/-- Reads an opening tag, without its number sign. -/
def openBlock (r : Reading) (content : List Char) : Except SyntaxError (Tag × Reading) :=
  let (name, tail) := content.span (· != ' ')
  let argument := trim (tail.drop 1)
  let source := String.ofList argument
  let name := String.ofList name
  if name == "if" || name == "unless" then
    if argument.isEmpty then .error (.openerWithoutArgument name)
    else do
      let condition ← Expr.read r.scopes source
      let kind := if name == "unless" then BlockKind.unless else .whenTrue
      .ok (.openIf (name == "unless") condition, r.enter kind)
  else if name == "each" then
    if argument.isEmpty then .error (.openerWithoutArgument name)
    else do
      let items ← Expr.read r.scopes source
      -- The items themselves are read outside the scope that they make.
      let level := r.opened + 1
      .ok (.openEach level items, { r.enter (.each level) with opened := level })
  else .error (.unknownBlock name)

/-- Reads a closing tag, without its slash. -/
def closeBlock (r : Reading) (content : List Char) : Except SyntaxError (Tag × Reading) :=
  let name := String.ofList (trim content)
  match r.blocks with
  | [] => .error (.unexpectedClosing name)
  | b :: rest =>
    if b.kind.name == name then .ok (b.kind.closingTag, { r with blocks := rest })
    else .error (.mismatchedClosing name b.kind.name)

/-- Reads an `else` tag. -/
def splitBlock (r : Reading) : Except SyntaxError (Tag × Reading) :=
  match r.blocks with
  | [] => .error .elseOutsideBlock
  | b :: rest => .ok (.otherwise, { r with blocks := { b with split := true } :: rest })

/-- Reads one piece. A comment gives no tag. -/
def step (r : Reading) : Piece → Except SyntaxError (Option Tag × Reading)
  | .text cs => .ok (some (.text (String.ofList cs)), r)
  | .mustache content =>
    match trim content with
    | '#' :: rest => (r.openBlock rest).map fun (t, r) => (some t, r)
    | '/' :: rest => (r.closeBlock rest).map fun (t, r) => (some t, r)
    | '!' :: _ => .ok (none, r)
    | cs =>
      if cs == "else".toList then r.splitBlock.map fun (t, r) => (some t, r)
      else (Expr.read r.scopes (String.ofList cs)).map fun e => (some (.output e), r)

/-- Reads the pieces of a template, all of whose blocks must be closed at the end. -/
def tags (r : Reading) : List Piece → Except SyntaxError (List Tag)
  | [] =>
    match r.blocks with
    | [] => .ok []
    | b :: _ => .error (.unclosedBlock b.kind.name)
  | p :: rest => do
    let (tag?, r') ← r.step p
    let more ← tags r' rest
    .ok (tag?.toList ++ more)

end Reading

/-- The tags of a template source. -/
def Tag.read (source : String) : Except SyntaxError (List Tag) :=
  Reading.start.tags (pieces source.toList)

end Formwork.Template
