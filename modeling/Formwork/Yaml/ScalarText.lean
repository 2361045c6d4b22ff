import Formwork.Json.Reader
import Formwork.Yaml.Cursor

/-!
# The texts of YAML scalars

A scalar is plain, quoted or a block.

* In plain and quoted scalars a line break is folded: one break becomes a space, and of several the
  first is dropped.
* A single-quoted scalar doubles its quotes; a double-quoted one has escapes.
* A block keeps its line breaks, or folds those between lines that are not indented further; its
  header says what happens to the breaks at its end.
-/

namespace Formwork.Yaml

/-- A text that was read, and the cursor after it. -/
abbrev Scanned := Except YamlError (List Char × Cursor)

/-! ## Quoted scalars -/

/-- The character of a one-letter escape. -/
def simpleEscape? (c : Char) : Option Char :=
  ([('0', 0), ('a', 7), ('b', 8), ('t', 9), ('\t', 9), ('n', 10), ('v', 11), ('f', 12), ('r', 13),
    ('e', 27), (' ', 32), ('"', 34), ('\\', 92), ('/', 47), ('N', 0x85), ('_', 0xA0),
    ('L', 0x2028), ('P', 0x2029)].lookup c).map Char.ofNat

/-- The number of hexadecimal digits that an escape has. -/
def escapeWidth? (c : Char) : Option Nat := [('x', 2), ('u', 4), ('U', 8)].lookup c

/-- The number with these hexadecimal digits. -/
def hexNumber? (cs : List Char) : Option Nat :=
  cs.foldlM (fun n c => (Json.hexDigit? c).map fun d => 16 * n + d) 0

/-- Line breaks and the blanks around them inside a quoted scalar. -/
def quotedBreaks : (fuel : Nat) → Cursor → Scanned
  | fuel, c =>
    if c.atDocumentMark then .error .malformed
    else
      let c := c.dropWhile fun x => x == ' ' || x == '\t'
      match c.lineBreak, fuel with
      | ([], _), _ => .ok ([], c)
      | _, 0 => .error .malformed
      | (br, c), fuel + 1 => (quotedBreaks fuel c).map fun (more, c) => (br ++ more, c)

/-- What folding makes of a line break and the breaks after it. -/
def foldBreak (first more : List Char) : List Char :=
  if first != ['\n'] then first ++ more else if more.isEmpty then [' '] else more

/-- The rest of a quoted scalar, after its opening quote. -/
def quotedBody (double : Bool) : (fuel : Nat) → Cursor → Scanned
  | 0, _ => .error .malformed
  | fuel + 1, c =>
    let quote := if double then '"' else '\''
    let x := c.peek
    let continueWith (cs : List Char) (c : Cursor) : Scanned :=
      (quotedBody double fuel c).map fun (more, c) => (cs ++ more, c)
    if x == endMark then .error .malformed
    else if x == quote then
      if !double && c.peekAt 1 == quote then continueWith [quote] (c.skip 2) else .ok ([], c.next)
    else if x == ' ' || x == '\t' || isBreak x then
      let (blanks, c) := c.take fun x => x == ' ' || x == '\t'
      if isBreak c.peek then
        let (first, c) := c.lineBreak
        match quotedBreaks fuel c with
        | .error e => .error e
        | .ok (more, c) => continueWith (foldBreak first more) c
      else continueWith blanks c
    else if double && x == '\\' then
      let e := c.peekAt 1
      match simpleEscape? e, escapeWidth? e with
      | some y, _ => continueWith [y] (c.skip 2)
      | none, some width =>
        let digits := (c.rest.drop 2).take width
        match hexNumber? digits with
        | none => .error .malformed
        | some n =>
          if digits.length < width then .error .malformed
          else if 0x110000 ≤ n then .error (.scalar (.characterCode n))
          -- A half of a surrogate pair alone is no character; a mark stands for it.
          else continueWith [if n.isValidChar then Char.ofNat n else Json.loneHalf]
            (c.skip (2 + width))
      | none, none =>
        -- An escaped line break joins the lines, without the blanks at its sides.
        if isBreak e then
          match quotedBreaks fuel (c.next.lineBreak).2 with
          | .error e => .error e
          | .ok (more, c) => continueWith more c
        else .error .malformed
    else continueWith [x] c.next

/-- A quoted scalar. -/
def quotedScalar (double : Bool) (c : Cursor) : Scanned :=
  quotedBody double (c.rest.length + 1) c.next

/-! ## Plain scalars -/

/-- Whether a plain scalar stops in front of a character; `after` is the character behind it. -/
def stopsPlain (inFlow : Bool) (x after : Char) : Bool :=
  isBlankOrEnd x ||
    (x == ':' && (isBlankOrEnd after || (inFlow && [',', '[', ']', '{', '}'].contains after))) ||
    (inFlow && [',', '?', '[', ']', '{', '}'].contains x)

/-- The part of a plain scalar up to the next blank. -/
def plainRun (inFlow : Bool) : List Char → List Char
  | [] => []
  | x :: rest =>
    if stopsPlain inFlow x (rest.headD endMark) then [] else x :: plainRun inFlow rest

/-- Line breaks and spaces between the lines of a plain scalar, the cursor after them, and whether
it stands at a document mark. -/
def plainBreaks : (fuel : Nat) → Cursor → List Char × Cursor × Bool
  | 0, c => ([], c, false)
  | fuel + 1, c =>
    if c.peek == ' ' then plainBreaks fuel c.next
    else if isBreak c.peek then
      let (br, c) := c.lineBreak
      if c.atDocumentMark then ([], c, true)
      else
        let (more, c, marked) := plainBreaks fuel c
        (br ++ more, c, marked)
    else ([], c, false)

/-- What stands between two parts of a plain scalar. -/
structure PlainGap where
  /-- What it is read as; nothing when no part can follow. -/
  text : List Char
  cursor : Cursor
  /-- Whether there is a line break in it. -/
  broken : Bool

/-- The gap after a part of a plain scalar. -/
def plainGap (c : Cursor) : PlainGap :=
  let (spaces, c) := c.take (· == ' ')
  if isBreak c.peek then
    let (first, c) := c.lineBreak
    if c.atDocumentMark then ⟨[], c, true⟩
    else
      let (more, c, marked) := plainBreaks (c.rest.length + 1) c
      ⟨if marked then [] else foldBreak first more, c, true⟩
  else ⟨spaces, c, false⟩

/-- A plain scalar: its text, the cursor after it and the gap behind it, and whether the last gap
held a line break. `indent` is the least column of its further lines outside of flow collections. -/
def plainParts (inFlow : Bool) (indent : Int) :
    (fuel : Nat) → (gap : List Char) → (broken : Bool) → Cursor → List Char × Cursor × Bool
  | 0, _, broken, c => ([], c, broken)
  | fuel + 1, gap, broken, c =>
    if c.peek == '#' then ([], c, broken)
    else
      let part := plainRun inFlow c.rest
      if part.isEmpty then ([], c, broken)
      else
        let g := plainGap (c.skip part.length)
        -- A number sign after blanks starts a comment, and a line further out ends the scalar.
        let stop := g.text.isEmpty || g.cursor.peek == '#' || (!inFlow && g.cursor.column < indent)
        if stop then (gap ++ part, g.cursor, g.broken)
        else
          let (more, c, broken) := plainParts inFlow indent fuel g.text g.broken g.cursor
          (gap ++ part ++ more, c, broken)

/-- A plain scalar, the cursor after it, and whether a line break stands behind it. -/
def plainScalar (inFlow : Bool) (indent : Int) (c : Cursor) : List Char × Cursor × Bool :=
  plainParts inFlow indent (c.rest.length + 1) [] false c

/-! ## Block scalars -/

/-- What the header of a block scalar says: what to do with the breaks at its end, and how far it is
indented. -/
structure BlockHeader where
  /-- Keep them all, or none; one by default. -/
  keep : Option Bool
  increment : Option Nat

/-- A chomping mark. -/
def chompMark? (c : Char) : Option Bool :=
  if c == '+' then some true else if c == '-' then some false else none

/-- An indentation mark, which is a digit other than zero. -/
def incrementMark? (c : Char) : Option Nat :=
  if '1' ≤ c && c ≤ '9' then some (c.toNat - 48) else none

/-- Reads the header of a block scalar, after its indicator, with the rest of its line. -/
def blockHeader (c : Cursor) : Except YamlError (BlockHeader × Cursor) :=
  let (keep, increment, c) := match chompMark? c.peek with
    | some keep =>
      match incrementMark? (c.peekAt 1) with
      | some n => (some keep, some n, c.skip 2)
      | none => (some keep, none, c.next)
    | none =>
      match incrementMark? c.peek with
      | some n =>
        match chompMark? (c.peekAt 1) with
        | some keep => (some keep, some n, c.skip 2)
        | none => (none, some n, c.next)
      | none => (none, none, c)
  if !isSpaceBreakOrEnd c.peek then .error .malformed
  else
    let c := (c.dropWhile (· == ' ')).comment
    if isBreakOrEnd c.peek then .ok (⟨keep, increment⟩, c.lineBreak.2) else .error .malformed

/-- The empty lines at the start of a block, and the furthest column of their spaces. -/
def blockIndentation : (fuel : Nat) → (furthest : Nat) → Cursor → List Char × Nat × Cursor
  | 0, furthest, c => ([], furthest, c)
  | fuel + 1, furthest, c =>
    if c.peek == ' ' then blockIndentation fuel (max furthest c.next.column) c.next
    else if isBreak c.peek then
      let (br, c) := c.lineBreak
      let (more, furthest, c) := blockIndentation fuel furthest c
      (br ++ more, furthest, c)
    else ([], furthest, c)

/-- Skips spaces up to a column. -/
def skipIndent (indent : Nat) (c : Cursor) : Cursor :=
  c.skip (min (c.run (· == ' ')).length (indent - c.column))

/-- The empty lines inside a block. -/
def blockBreaks (indent : Nat) : (fuel : Nat) → Cursor → List Char × Cursor
  | 0, c => ([], skipIndent indent c)
  | fuel + 1, c =>
    let c := skipIndent indent c
    if isBreak c.peek then
      let (br, c) := c.lineBreak
      let (more, c) := blockBreaks indent fuel c
      (br ++ more, c)
    else ([], c)

/-- The lines of a block and the breaks after it: the text, the last line break, the empty lines
after it. `breaks` are the empty lines in front. -/
def blockLines (folded : Bool) (indent : Nat) :
    (fuel : Nat) → (breaks : List Char) → Cursor → List Char × List Char × List Char × Cursor
  | 0, breaks, c => ([], [], breaks, c)
  | fuel + 1, breaks, c =>
    if c.column != indent || c.peek == endMark then ([], [], breaks, c)
    else
      let flush := !(c.peek == ' ' || c.peek == '\t')
      let (line, c) := c.take (!isBreak ·)
      let (br, c) := c.lineBreak
      let (more, c) := blockBreaks indent fuel c
      if c.column == indent && c.peek != endMark then
        -- Lines fold only between two that are not indented further than the block.
        let folds := folded && br == ['\n'] && flush && !(c.peek == ' ' || c.peek == '\t')
        let joint := if folds then (if more.isEmpty then [' '] else []) else br
        let (text, last, after, c) := blockLines folded indent fuel more c
        (breaks ++ line ++ joint ++ text, last, after, c)
      else (breaks ++ line, br, more, c)

/-- A block scalar after its indicator, inside a block of the given indentation. -/
def blockScalar (folded : Bool) (outer : Int) (c : Cursor) : Scanned :=
  match blockHeader c.next with
  | .error e => .error e
  | .ok (header, c) =>
    let least := max 1 (outer + 1).toNat
    let fuel := c.rest.length + 1
    let (breaks, indent, c) := match header.increment with
      | some n =>
        let indent := least + n - 1
        let (breaks, c) := blockBreaks indent fuel c
        (breaks, indent, c)
      | none =>
        let (breaks, furthest, c) := blockIndentation fuel 0 c
        (breaks, max least furthest, c)
    let (text, last, after, c) := blockLines folded indent fuel breaks c
    let ending := match header.keep with
      | some false => []
      | none => last
      | some true => last ++ after
    .ok (text ++ ending, c)

end Formwork.Yaml
