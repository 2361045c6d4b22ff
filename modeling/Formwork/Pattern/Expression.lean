import Formwork.Text.CaseMap
import Formwork.Text.Digit
import Formwork.Text.Word

/-!
# Pattern expressions

A pattern describes texts: characters of a set, anchors between characters, sequences,
alternatives, repetitions, groups that remember what they matched, references to those groups, and
looks ahead and behind.

The **width** of an expression is the range of the lengths of what it can match. What is looked for
behind a place must have one width.
-/

namespace Formwork.Pattern

open Formwork.Text

/-- How a pattern is read. -/
structure Flags where
  ignoreCase : Bool
  multiline : Bool
  dotAll : Bool
  verbose : Bool
  ascii : Bool
  deriving DecidableEq

/-- The flags at the start of a pattern. -/
def Flags.none : Flags := ⟨false, false, false, false, false⟩

/-- A named class of characters. -/
inductive Category where
  | digit | space | word
  deriving DecidableEq

/-- Whether a character is in a class. -/
def Category.holds (ascii : Bool) (category : Category) (c : Char) : Bool :=
  (!ascii || c.toNat < 128) &&
    match category with
    | .digit => isDecimal c
    | .space => isBlank c && !(ascii && 28 ≤ c.toNat && c.toNat ≤ 31)
    | .word => isWordChar c

/-- An item of a character set. -/
inductive SetItem where
  | range (low high : Nat)
  | category (category : Category) (negated : Bool)
  deriving DecidableEq

/-- A set of characters. -/
structure CharSet where
  items : List SetItem
  negated : Bool
  ignoreCase : Bool
  ascii : Bool
  deriving DecidableEq

/-- The characters that differ from a character in case only. -/
def caseVariants (ascii : Bool) (c : Char) : List Char :=
  if ascii then [c, c.toLower, c.toUpper]
  else
    let lower := lowerChar c
    [c, lower] ++ (match upperChar c with | [u] => [u, lowerChar u] | _ => []) ++
      (match upperChar lower with | [u] => [u] | _ => [])

namespace CharSet

/-- Whether an item holds a character. -/
def itemHolds (ascii : Bool) (c : Char) : SetItem → Bool
  | .range low high => low ≤ c.toNat && c.toNat ≤ high
  | .category k negated => k.holds ascii c != negated

/-- Whether a set holds a character. -/
def holds (s : CharSet) (c : Char) : Bool :=
  let variants := if s.ignoreCase then caseVariants s.ascii c else [c]
  (variants.any fun v => s.items.any (itemHolds s.ascii v)) != s.negated

end CharSet

/-- A condition on a place between characters. -/
inductive Anchor where
  | textStart
  | textEnd
  /-- The end, or the place before a line feed that ends the text. -/
  | lastLineEnd
  | lineStart
  | lineEnd
  | boundary (ascii : Bool)
  | noBoundary (ascii : Bool)
  deriving DecidableEq

/-- How many times a repetition is tried first. -/
inductive Greed where
  | greedy
  | lazy
  /-- As many times as possible, once and for all. -/
  | possessive
  deriving DecidableEq

/-- The lengths of what an expression can match, from the least to the greatest, if there is one. -/
structure Width where
  least : Nat
  most : Option Nat
  deriving DecidableEq

namespace Width

/-- The sum of two bounds. -/
def addBound : Option Nat → Option Nat → Option Nat
  | some a, some b => some (a + b)
  | _, _ => none

/-- The product of a bound and a number of times. -/
def mulBound : Option Nat → Option Nat → Option Nat
  | some 0, _ => some 0
  | _, some 0 => some 0
  | some a, some b => some (a * b)
  | _, _ => none

/-- The greater of two bounds. -/
def maxBound : Option Nat → Option Nat → Option Nat
  | some a, some b => some (max a b)
  | _, _ => none

def zero : Width := ⟨0, some 0⟩
def add (a b : Width) : Width := ⟨a.least + b.least, addBound a.most b.most⟩
def either (a b : Width) : Width := ⟨min a.least b.least, maxBound a.most b.most⟩
def times (w : Width) (least : Nat) (most : Option Nat) : Width :=
  ⟨w.least * least, mulBound w.most most⟩

/-- The only length, if there is only one. -/
def fixed? (w : Width) : Option Nat := if w.most = some w.least then some w.least else none

end Width

/-- A pattern expression. -/
inductive Expr where
  | empty
  | nothing
  | char (set : CharSet)
  | anchor (a : Anchor)
  | seq (first second : Expr)
  | alt (first second : Expr)
  | times (least : Nat) (most : Option Nat) (greed : Greed) (body : Expr)
  | group (index : Nat) (body : Expr)
  /-- What a group matched, whose width is known. -/
  | recall (index : Nat) (width : Width) (ignoreCase ascii : Bool)
  | ahead (negated : Bool) (body : Expr)
  /-- What stands just before, over this many characters. -/
  | behind (negated : Bool) (width : Nat) (body : Expr)
  /-- The first way to match, once and for all. -/
  | atomic (body : Expr)
  /-- One of two, by whether a group has matched. -/
  | choose (index : Nat) (matched unmatched : Expr)
  deriving DecidableEq

namespace Expr

/-- The width of an expression. -/
def width : Expr → Width
  | .empty => .zero
  | .nothing => .zero
  | .char _ => ⟨1, some 1⟩
  | .anchor _ => .zero
  | .seq a b => a.width.add b.width
  | .alt a b => a.width.either b.width
  | .times least most _ body => body.width.times least most
  | .group _ body => body.width
  | .recall _ w _ _ => w
  | .ahead .. => .zero
  | .behind .. => .zero
  | .atomic body => body.width
  | .choose _ a b => a.width.either b.width

/-- The expressions one after another. -/
def sequence : List Expr → Expr
  | [] => .empty
  | [e] => e
  | e :: es => .seq e (sequence es)

/-- One of several expressions, tried in order. -/
def alternatives : List Expr → Expr
  | [] => .empty
  | [e] => e
  | e :: es => .alt e (alternatives es)

end Expr

end Formwork.Pattern
