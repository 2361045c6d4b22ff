import Formwork.Pattern.Expression

/-!
# Matching

Matching tries the ways in which an expression can match one after another and stops at the first
that what follows accepts. A matcher therefore takes the place where it starts and what follows,
and the meaning of an expression is a matcher.

A repetition goes on past its least count only after it has moved, so the length of the text bounds
it.
-/

namespace Formwork.Pattern

open Formwork.Text

/-- Where matching stands: the position, and what each group has matched, latest first. -/
structure Place where
  position : Nat
  groups : List (Nat × Nat × Nat)
  deriving DecidableEq

/-- What a group has matched: start and end. -/
def Place.group? (p : Place) (index : Nat) : Option (Nat × Nat) := p.groups.lookup index

/-- What follows a match: a place where all of it ends, if it can match. -/
abbrev Following := Place → Option Place

/-- A way to match at a place, with what follows. -/
abbrev Matcher := Place → Following → Option Place

/-- Whether a word begins or ends at a position. -/
def isBoundary (ascii : Bool) (text : Array Char) (position : Nat) : Bool :=
  let word (i : Nat) := (text[i]?).any (Category.word.holds ascii)
  (position != 0 && word (position - 1)) != word position

/-- Whether an anchor holds at a position. -/
def Anchor.holds (text : Array Char) (position : Nat) : Anchor → Bool
  | .textStart => position == 0
  | .textEnd => position == text.size
  | .lastLineEnd =>
    position == text.size || (position + 1 == text.size && text[position]? == some '\n')
  | .lineStart => position == 0 || text[position - 1]? == some '\n'
  | .lineEnd => position == text.size || text[position]? == some '\n'
  | .boundary ascii => text.size != 0 && isBoundary ascii text position
  | .noBoundary ascii => text.size != 0 && !isBoundary ascii text position

/-- Whether two characters count as the same. -/
def sameChar (ignoreCase ascii : Bool) (a b : Char) : Bool :=
  a == b || (ignoreCase && (caseVariants ascii a).any fun v => (caseVariants ascii b).contains v)

/-- Whether the text repeats at `position` what stands from `start` on. -/
def repeats (text : Array Char) (ignoreCase ascii : Bool) (start position : Nat) : Nat → Bool
  | 0 => true
  | n + 1 =>
    match text[start]?, text[position]? with
    | some a, some b =>
      sameChar ignoreCase ascii a b && repeats text ignoreCase ascii (start + 1) (position + 1) n
    | _, _ => false

/-- Whether `most` allows another time. -/
def allows (most : Option Nat) (count : Nat) : Bool := most.all (count < ·)

/-- Repeats a matcher, with the count so far and the position of the last time past the least
count. -/
def repeatGreedy (body : Matcher) (least : Nat) (most : Option Nat) (next : Following) :
    (fuel : Nat) → (count : Nat) → (last : Option Nat) → Following
  | 0, _, _, p => next p
  | fuel + 1, count, last, p =>
    -- A time that is required is taken even if it is empty.
    if count < least then
      body p (repeatGreedy body least most next fuel (count + 1) last)
    else if allows most count && last != some p.position then
      match body p (repeatGreedy body least most next fuel (count + 1) (some p.position)) with
      | some r => some r
      | none => next p
    else next p

/-- Repeats a matcher as few times as what follows allows. -/
def repeatLazy (body : Matcher) (least : Nat) (most : Option Nat) (next : Following) :
    (fuel : Nat) → (count : Nat) → (last : Option Nat) → Following
  | 0, _, _, p => next p
  | fuel + 1, count, last, p =>
    if count < least then
      body p (repeatLazy body least most next fuel (count + 1) last)
    else
      match next p with
      | some r => some r
      | none =>
        if allows most count && last != some p.position then
          body p (repeatLazy body least most next fuel (count + 1) (some p.position))
        else none

/-- More times than a repetition can be tried. -/
def repetitionBound (text : Array Char) (least : Nat) (p : Place) : Nat :=
  least + (text.size - p.position) + 2

/-- The meaning of an expression. -/
def Expr.run (text : Array Char) : Expr → Matcher
  | .empty, p, next => next p
  | .nothing, _, _ => none
  | .char s, p, next =>
    match text[p.position]? with
    | some c => if s.holds c then next { p with position := p.position + 1 } else none
    | none => none
  | .anchor a, p, next => if a.holds text p.position then next p else none
  | .seq a b, p, next => a.run text p fun q => b.run text q next
  | .alt a b, p, next =>
    match a.run text p next with
    | some r => some r
    | none => b.run text p next
  | .times least most greed body, p, next =>
    let bound := repetitionBound text least p
    -- A possessive repetition is settled before what follows is tried.
    match greed with
    | .greedy => repeatGreedy (fun q k => body.run text q k) least most next bound 0 none p
    | .lazy => repeatLazy (fun q k => body.run text q k) least most next bound 0 none p
    | .possessive =>
      match repeatGreedy (fun q k => body.run text q k) least most some bound 0 none p with
      | some q => next q
      | none => none
  | .group index body, p, next =>
    body.run text p fun q => next { q with groups := (index, p.position, q.position) :: q.groups }
  | .recall index _ ignoreCase ascii, p, next =>
    match p.group? index with
    | some (start, stop) =>
      if repeats text ignoreCase ascii start p.position (stop - start) then
        next { p with position := p.position + (stop - start) }
      else none
    | none => none
  -- What a look-around matches takes no characters, but its groups are kept.
  | .ahead false body, p, next =>
    match body.run text p some with
    | some q => next { q with position := p.position }
    | none => none
  | .ahead true body, p, next =>
    match body.run text p some with
    | some _ => none
    | none => next p
  | .behind negated width body, p, next =>
    let found :=
      if p.position < width then none
      else body.run text { p with position := p.position - width } some
    match negated, found with
    | false, some q => next { q with position := p.position }
    | true, none => next p
    | _, _ => none
  | .atomic body, p, next =>
    match body.run text p some with
    | some q => next q
    | none => none
  | .choose index a b, p, next =>
    if (p.group? index).isSome then a.run text p next else b.run text p next

/-- Whether the expression matches from some position on, of the last `count + 1`. -/
def searchFrom (e : Expr) (text : Array Char) : (count : Nat) → Bool
  | 0 => (e.run text ⟨text.size, []⟩ some).isSome
  | n + 1 => (e.run text ⟨text.size - (n + 1), []⟩ some).isSome || searchFrom e text n

/-- Whether the expression matches some part of a text. -/
def Expr.occursIn (e : Expr) (s : String) : Bool :=
  let text := s.toList.toArray
  searchFrom e text text.size

end Formwork.Pattern
