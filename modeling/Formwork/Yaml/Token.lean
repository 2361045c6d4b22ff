import Formwork.Yaml.ScalarText

/-!
# YAML tokens

The layout of a YAML text becomes tokens: block collections are opened and closed by the columns of
their entries, flow collections by brackets. A key need not be marked in advance: when a colon shows
that what stands before it on its line was a key, the mark of the key, and of the mapping that it
starts, are put in front of it. The scanner therefore remembers, for each nesting of flow
collections, where a key may have started.

A text is read while it is scanned. A malformed text is refused whoever finds it out, but what is
wrong with a scalar only counts when a reader asks for it, behind all tokens that it is given
without (`Layout.settled`).
-/

namespace Formwork.Yaml

/-- A tag as it was written: the handle, if any, and the rest. -/
structure Tag where
  handle : Option String
  suffix : String
  deriving DecidableEq

/-- A YAML token. -/
inductive Token where
  /-- The version directive, with the major version. -/
  | versionDirective (major : Nat)
  | tagDirective (handle urlStart : String)
  | otherDirective
  | documentStart
  | documentEnd
  | blockSequenceStart
  | blockMappingStart
  | blockEnd
  | flowSequenceStart
  | flowSequenceEnd
  | flowMappingStart
  | flowMappingEnd
  | flowEntry
  | blockEntry
  | key
  | value
  | alias (name : String)
  | anchor (name : String)
  | tag (t : Tag)
  | scalar (text : String) (plain : Bool)
  | streamEnd
  deriving DecidableEq

/-- The tokens that a reader is given, and what is wrong with the scalar behind them, if it is not
the end. -/
structure TokenRun where
  tokens : List Token
  fault? : Option ScalarFault

/-- Where a key may have started. -/
structure KeyCandidate where
  tokenNumber : Nat
  required : Bool
  index : Nat
  line : Nat
  column : Nat

/-- The state of the scanner. -/
structure Layout where
  cursor : Cursor
  tokens : Array Token
  flowDepth : Nat
  indent : Int
  outerIndents : List Int
  keyAllowed : Bool
  candidates : List (Nat × KeyCandidate)

namespace Layout

def start (s : String) : Layout :=
  { cursor := Cursor.start s, tokens := #[], flowDepth := 0, indent := -1, outerIndents := [],
    keyAllowed := true, candidates := [] }

/-- A step of the scanner. -/
abbrev Step := Layout → Except YamlError Layout

def push (l : Layout) (t : Token) : Layout := { l with tokens := l.tokens.push t }

/-- Reads one token that is `width` characters long. -/
def pushMark (t : Token) (width : Nat) (l : Layout) : Layout :=
  { l.push t with cursor := l.cursor.skip width }

def inFlow (l : Layout) : Bool := l.flowDepth != 0

def column (l : Layout) : Int := l.cursor.column

/-- The longest distance between the start of a key and its colon. -/
def maxKeyLength : Nat := 1024

/-- Whether a candidate is on another line or too far back. -/
def isStale (l : Layout) (k : KeyCandidate) : Bool :=
  k.line != l.cursor.line || maxKeyLength < l.cursor.index - k.index

/-- Forgets the candidates that are stale. -/
def dropStale : Step := fun l =>
  if l.candidates.any fun (_, k) => l.isStale k && k.required then .error .malformed
  else .ok { l with candidates := l.candidates.filter fun (_, k) => !l.isStale k }

/-- How many tokens a reader is given before more are scanned: those in front of the first key that
may have started. -/
def settled (l : Layout) : Nat :=
  l.candidates.foldl (fun n (_, k) => if l.isStale k then n else min n k.tokenNumber) l.tokens.size

/-- Forgets the candidate of the current nesting. -/
def dropCandidate : Step := fun l =>
  match l.candidates.lookup l.flowDepth with
  | some k =>
    if k.required then .error .malformed
    else .ok { l with candidates := l.candidates.filter (·.1 != l.flowDepth) }
  | none => .ok l

/-- Remembers that a key may start here, if one is allowed. -/
def saveCandidate : Step := fun l =>
  if l.keyAllowed then do
    -- At the column of an open block only another entry may stand, so a colon has to follow.
    let required := !l.inFlow && l.indent == l.column
    let l ← dropCandidate l
    .ok { l with candidates := (l.flowDepth, ⟨l.tokens.size, required, l.cursor.index,
      l.cursor.line, l.cursor.column⟩) :: l.candidates }
  else .ok l

/-- Closes the block collections that are indented further than a column. -/
def closeBlocks (column : Int) (l : Layout) : Layout :=
  if l.inFlow then l else go l.outerIndents l
where
  go : List Int → Layout → Layout
    | outer, l =>
      if column < l.indent then
        match outer with
        -- Outside all blocks the indent is one less than the first column.
        | [] => { l.push .blockEnd with indent := -1, outerIndents := [] }
        | i :: rest => go rest { l.push .blockEnd with indent := i, outerIndents := rest }
      else l

/-- Opens a block collection at a column that is further in: its start token goes to `position`. -/
def openBlock (column : Int) (t : Token) (position : Nat) (l : Layout) : Layout :=
  if l.indent < column then
    { l with
      indent := column
      outerIndents := l.indent :: l.outerIndents
      tokens := l.tokens.insertIdxIfInBounds position t }
  else l

def allowKey (allowed : Bool) (l : Layout) : Layout := { l with keyAllowed := allowed }

/-! ## Blanks -/

/-- Skips spaces, comments and line breaks. In block context a key may start after a line break. -/
def skipBlanks : (fuel : Nat) → Layout → Layout
  | 0, l => l
  | fuel + 1, l =>
    let c := (l.cursor.dropWhile (· == ' ')).comment
    match c.lineBreak with
    | ([], _) => { l with cursor := c }
    | (_, c) =>
      skipBlanks fuel { l with cursor := c, keyAllowed := if l.inFlow then l.keyAllowed else true }

/-! ## Names, tags and directives -/

/-- The name of an anchor or alias, after its mark. -/
def anchorName (c : Cursor) : Except YamlError (String × Cursor) :=
  let (name, c) := c.next.take isNameChar
  let ends := isBlankOrEnd c.peek || ['?', ':', ',', ']', '}', '%', '@', '\x60'].contains c.peek
  if name.isEmpty || !ends then .error .malformed else .ok (String.ofList name, c)

/-- A character of the written part of a tag. -/
def isTagChar (c : Char) : Bool :=
  c.isAlphanum || "-;/?:@&=+$,_.!~*'()[]%".toList.contains c

/-- Bytes written as escapes, as text. -/
def decodeEscapes : List Char → Option (List UInt8)
  | '%' :: a :: b :: rest => do
    let a ← Json.hexDigit? a
    let b ← Json.hexDigit? b
    let more ← decodeEscapes rest
    some ((16 * a + b).toUInt8 :: more)
  | '%' :: _ => none
  | c :: rest => do
    let more ← decodeEscapes rest
    some (c.toNat.toUInt8 :: more)
  | [] => some []

/-- The written part of a tag. -/
def tagText (c : Cursor) : Except YamlError (String × Cursor) :=
  let (cs, c) := c.take isTagChar
  if cs.isEmpty then .error .malformed
  else match (decodeEscapes cs).bind fun bytes => String.fromUTF8? ⟨bytes.toArray⟩ with
    | some s => .ok (s, c)
    | none => .error .malformed

/-- A handle: an exclamation mark, or a name between two of them. -/
def tagHandle (c : Cursor) : Except YamlError (String × Cursor) :=
  if c.peek != '!' then .error .malformed
  else
    let name := c.next.run isNameChar
    let after := c.skip (1 + name.length)
    if after.peek == '!' then .ok (String.ofList ('!' :: name ++ ['!']), after.next)
    else if name.isEmpty && after.peek == ' ' then .ok ("!", after)
    else .error .malformed

/-- A tag, after nothing of it has been read. -/
def tag (c : Cursor) : Except YamlError (Tag × Cursor) := do
  let second := c.peekAt 1
  let (t, c) ←
    if second == '<' then do
      let (suffix, c) ← tagText (c.skip 2)
      if c.peek != '>' then .error .malformed else .ok (⟨none, suffix⟩, c.next)
    else if isBlankOrEnd second then .ok (⟨none, "!"⟩, c.next)
    else do
      -- A second exclamation mark in the word shows that the first one opened a handle.
      let word := c.next.run fun x => !isSpaceBreakOrEnd x
      let (handle, c) ← if word.contains '!' then tagHandle c else .ok ("!", c.next)
      let (suffix, c) ← tagText c
      .ok (⟨some handle, suffix⟩, c)
  if isSpaceBreakOrEnd c.peek then .ok (t, c) else .error .malformed

/-- Digits as a number. -/
def directiveNumber (c : Cursor) : Except YamlError (Nat × Cursor) :=
  let (ds, c) := c.take Char.isDigit
  if ds.isEmpty then .error .malformed
  else .ok (Numeral.ofDigits (ds.map fun d => d.toNat - 48), c)

/-- A directive, with the rest of its line. -/
def directive (c : Cursor) : Except YamlError (Token × Cursor) := do
  let (name, c) := c.next.take isNameChar
  if name.isEmpty || !isSpaceBreakOrEnd c.peek then .error .malformed
  else
    let (t, c) ←
      if name == "YAML".toList then do
        let (major, c) ← directiveNumber (c.dropWhile (· == ' '))
        if c.peek != '.' then .error .malformed
        else do
          let (_, c) ← directiveNumber c.next
          if isSpaceBreakOrEnd c.peek then .ok (.versionDirective major, c)
          else .error .malformed
      else if name == "TAG".toList then do
        let (handle, c) ← tagHandle (c.dropWhile (· == ' '))
        if c.peek != ' ' then .error .malformed
        else do
          let (text, c) ← tagText (c.dropWhile (· == ' '))
          if isSpaceBreakOrEnd c.peek then .ok (.tagDirective handle text, c)
          else .error .malformed
      else .ok (.otherDirective, c.dropWhile (!isBreak ·))
    let c := (c.dropWhile (· == ' ')).comment
    if isBreakOrEnd c.peek then .ok (t, c.lineBreak.2) else .error .malformed

/-! ## One token -/

/-- Ends the open blocks in front of something that belongs to the document as a whole. -/
def endBlocks : Step := fun l => do
  let l ← dropCandidate (l.closeBlocks (-1))
  .ok (l.allowKey false)

def readEnd : Step := fun l => do
  let l ← endBlocks l
  .ok ({ l with candidates := [] }.push .streamEnd)

def readDirective : Step := fun l => do
  let l ← endBlocks l
  let (t, c) ← directive l.cursor
  .ok { l.push t with cursor := c }

def readDocumentMark (t : Token) : Step := fun l => do
  let l ← endBlocks l
  .ok (l.pushMark t 3)

def readFlowStart (t : Token) : Step := fun l => do
  let l ← saveCandidate l
  .ok (({ l with flowDepth := l.flowDepth + 1 }.allowKey true).pushMark t 1)

def readFlowEnd (t : Token) : Step := fun l => do
  let l ← dropCandidate l
  match l.flowDepth with
  | 0 => .error .malformed
  | depth + 1 => .ok (({ l with flowDepth := depth }.allowKey false).pushMark t 1)

def readFlowEntry : Step := fun l => do
  let l ← dropCandidate (l.allowKey true)
  .ok (l.pushMark .flowEntry 1)

def readBlockEntry : Step := fun l => do
  if !l.inFlow && !l.keyAllowed then .error .malformed
  else
    let l := if l.inFlow then l else l.openBlock l.column .blockSequenceStart l.tokens.size
    let l ← dropCandidate (l.allowKey true)
    .ok (l.pushMark .blockEntry 1)

def readKey : Step := fun l => do
  if !l.inFlow && !l.keyAllowed then .error .malformed
  else
    let l := if l.inFlow then l else l.openBlock l.column .blockMappingStart l.tokens.size
    let l ← dropCandidate (l.allowKey (!l.inFlow))
    .ok (l.pushMark .key 1)

def readValue : Step := fun l => do
  match l.candidates.lookup l.flowDepth with
  | some k =>
    -- What stood here was a key: its mark, and that of a mapping it starts, go before it.
    let l := { l with
      candidates := l.candidates.filter (·.1 != l.flowDepth)
      tokens := l.tokens.insertIdxIfInBounds k.tokenNumber .key }
    let l := if l.inFlow then l else l.openBlock k.column .blockMappingStart k.tokenNumber
    .ok ((l.allowKey false).pushMark .value 1)
  | none =>
    -- A colon with nothing before it belongs to an explicit key, or to an empty one.
    if !l.inFlow && !l.keyAllowed then .error .malformed
    else
      let l := if l.inFlow then l else l.openBlock l.column .blockMappingStart l.tokens.size
      let l ← dropCandidate (l.allowKey (!l.inFlow))
      .ok (l.pushMark .value 1)

def readAnchor (make : String → Token) : Step := fun l => do
  let l ← saveCandidate l
  let (name, c) ← anchorName l.cursor
  .ok { (l.allowKey false).push (make name) with cursor := c }

def readTag : Step := fun l => do
  let l ← saveCandidate l
  let (t, c) ← tag l.cursor
  .ok { (l.allowKey false).push (.tag t) with cursor := c }

def readBlockScalar (folded : Bool) : Step := fun l => do
  let l ← dropCandidate (l.allowKey true)
  let (text, c) ← blockScalar folded l.indent l.cursor
  .ok { l.push (.scalar (String.ofList text) false) with cursor := c }

def readQuotedScalar (double : Bool) : Step := fun l => do
  let l ← saveCandidate l
  let (text, c) ← quotedScalar double l.cursor
  .ok { (l.allowKey false).push (.scalar (String.ofList text) false) with cursor := c }

def readPlainScalar : Step := fun l => do
  let l ← saveCandidate l
  let (text, c, broken) := plainScalar l.inFlow (l.indent + 1) l.cursor
  .ok { (l.allowKey broken).push (.scalar (String.ofList text) true) with cursor := c }

/-- The characters that cannot start a plain scalar on their own. -/
def indicators : List Char :=
  ['-', '?', ':', ',', '[', ']', '\x7b', '\x7d', '#', '&', '*', '!', '|', '>', '\'', '"', '%', '@',
    '\x60']

/-- Whether a plain scalar starts here. -/
def startsPlain (l : Layout) : Bool :=
  let x := l.cursor.peek
  let followed := !isBlankOrEnd (l.cursor.peekAt 1)
  (!isBlankOrEnd x && !indicators.contains x) ||
    (followed && (x == '-' || (!l.inFlow && (x == '?' || x == ':'))))

/-- Reads the next token. -/
def readToken : Step := fun l => do
  let l ← dropStale (skipBlanks (l.cursor.rest.length + 1) l)
  let l := l.closeBlocks l.column
  let x := l.cursor.peek
  let separated := isBlankOrEnd (l.cursor.peekAt 1)
  let atMark := l.cursor.column == 0 && l.cursor.atDocumentMark
  if x == endMark then readEnd l
  else if x == '%' && l.cursor.column == 0 then readDirective l
  else if atMark && x == '-' then readDocumentMark .documentStart l
  else if atMark && x == '.' then readDocumentMark .documentEnd l
  else if x == '[' then readFlowStart .flowSequenceStart l
  else if x == '\x7b' then readFlowStart .flowMappingStart l
  else if x == ']' then readFlowEnd .flowSequenceEnd l
  else if x == '\x7d' then readFlowEnd .flowMappingEnd l
  else if x == ',' then readFlowEntry l
  else if x == '-' && separated then readBlockEntry l
  else if x == '?' && (l.inFlow || separated) then readKey l
  else if x == ':' && (l.inFlow || separated) then readValue l
  else if x == '*' then readAnchor .alias l
  else if x == '&' then readAnchor .anchor l
  else if x == '!' then readTag l
  else if x == '|' && !l.inFlow then readBlockScalar false l
  else if x == '>' && !l.inFlow then readBlockScalar true l
  else if x == '\'' then readQuotedScalar false l
  else if x == '"' then readQuotedScalar true l
  else if l.startsPlain then readPlainScalar l
  else .error .malformed

/-- Reads tokens up to the end. Each token takes a character, so the length of the text and one
more for the end bound the steps. -/
def readAll : (fuel : Nat) → Layout → Except YamlError TokenRun
  | 0, _ => .error .malformed
  | fuel + 1, l =>
    match readToken l with
    | .error .malformed => .error .malformed
    | .error (.scalar fault) => .ok ⟨l.tokens.toList.take l.settled, some fault⟩
    | .ok l =>
      if l.tokens.back? == some .streamEnd then .ok ⟨l.tokens.toList, none⟩ else readAll fuel l

end Layout

/-- The tokens of a text. -/
def tokenize (s : String) : Except YamlError TokenRun :=
  if s.toList.all isReadable then
    let l := Layout.start s
    let l := if l.cursor.peek == byteOrderMark then { l with cursor := l.cursor.next } else l
    Layout.readAll (s.length + 2) l
  else .error .malformed

end Formwork.Yaml
