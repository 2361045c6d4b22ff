/-!
# Reading YAML text

A cursor stands in a text and knows its line and column. The line breaks of YAML are the carriage
return, alone or with a line feed, the line feed, the next-line character and the line and
paragraph separators. The end of the text shows as the character of code zero, which no readable
text holds.
-/

namespace Formwork.Yaml

/-- What keeps a text from being a document. -/
inductive ScalarFault where
  /-- A text that is no integer numeral of the base. -/
  | notAnInteger (base : Nat) (text : String)
  | notAReal (text : String)
  | integerTooLong (digits : Nat)
  /-- A date or time with a part out of range. -/
  | timestamp (reason : String)
  /-- An escape of a code that no character has. -/
  | characterCode (code : Nat)
  /-- An explicit boolean tag on something else; the text in lower case. -/
  | notABoolean (text : String)
  /-- An explicit timestamp tag on something else. -/
  | notATimestamp
  /-- A timestamp that is the default value of a mapping. -/
  | defaultTimestamp
  /-- An explicit tag of numbers on an empty text. -/
  | emptyNumber
  /-- A real with so many parts of base 60 that the first of them has no double. -/
  | realTooLarge
  deriving DecidableEq

/-- Why a text is no document: it is not well formed, or one of its scalars has no value. -/
inductive YamlError where
  | malformed
  | scalar (fault : ScalarFault)
  deriving DecidableEq

/-- A position in a text. -/
structure Cursor where
  rest : List Char
  index : Nat
  line : Nat
  column : Nat

/-- The character that stands for the end of the text. -/
def endMark : Char := Char.ofNat 0

/-- The character that ends a line. -/
def isBreak (c : Char) : Bool :=
  c == '\n' || c == '\r' || c.toNat == 0x85 || c.toNat == 0x2028 || c.toNat == 0x2029

/-- A line break or the end. -/
def isBreakOrEnd (c : Char) : Bool := c == endMark || isBreak c

/-- A space, a line break or the end. -/
def isSpaceBreakOrEnd (c : Char) : Bool := c == ' ' || isBreakOrEnd c

/-- A space, a tab, a line break or the end. -/
def isBlankOrEnd (c : Char) : Bool := c == '\t' || isSpaceBreakOrEnd c

/-- The byte order mark, which takes no column. -/
def byteOrderMark : Char := Char.ofNat 0xFEFF

/-- A character that a document may hold. -/
def isReadable (c : Char) : Bool :=
  let n := c.toNat
  n == 9 || n == 10 || n == 13 || (32 ≤ n && n ≤ 126) || n == 0x85 || (0xA0 ≤ n && n ≤ 0xD7FF) ||
    (0xE000 ≤ n && n ≤ 0xFFFD) || 0x10000 ≤ n

/-- A character of an anchor or of the name of a tag handle or directive. -/
def isNameChar (c : Char) : Bool := c.isAlphanum || c == '-' || c == '_'

namespace Cursor

/-- The beginning of a text. -/
def start (s : String) : Cursor := ⟨s.toList, 0, 0, 0⟩

/-- The character `n` places further on. -/
def peekAt (c : Cursor) (n : Nat) : Char := c.rest.getD n endMark

/-- The next character. -/
def peek (c : Cursor) : Char := c.rest.headD endMark

/-- One character further on. -/
def next (c : Cursor) : Cursor :=
  match c.rest with
  | [] => c
  | x :: rest =>
    if isBreak x && !(x == '\r' && rest.head? == some '\n') then
      ⟨rest, c.index + 1, c.line + 1, 0⟩
    else ⟨rest, c.index + 1, c.line, if x == byteOrderMark then c.column else c.column + 1⟩

/-- `n` characters further on. -/
def skip (c : Cursor) : Nat → Cursor
  | 0 => c
  | n + 1 => c.next.skip n

/-- The characters in front as long as they are in a class. -/
def run (c : Cursor) (p : Char → Bool) : List Char := c.rest.takeWhile fun x => p x && x != endMark

/-- The characters in front as long as they are in a class, and the cursor after them. -/
def take (c : Cursor) (p : Char → Bool) : List Char × Cursor :=
  let cs := c.run p
  (cs, c.skip cs.length)

/-- The cursor after the characters of a class. -/
def dropWhile (c : Cursor) (p : Char → Bool) : Cursor := (c.take p).2

/-- Reads a line break, if there is one: most are read as a line feed. -/
def lineBreak (c : Cursor) : List Char × Cursor :=
  let x := c.peek
  if x == '\r' && c.peekAt 1 == '\n' then (['\n'], c.skip 2)
  else if x == '\r' || x == '\n' || x.toNat == 0x85 then (['\n'], c.next)
  else if isBreak x then ([x], c.next)
  else ([], c)

/-- Whether one of the document marks, `---` or `...`, stands here. -/
def atDocumentMark (c : Cursor) : Bool :=
  let mark := c.rest.take 3
  (mark == ['-', '-', '-'] || mark == ['.', '.', '.']) && isBlankOrEnd (c.peekAt 3)

/-- Reads a comment, if there is one. -/
def comment (c : Cursor) : Cursor :=
  if c.peek == '#' then c.dropWhile (!isBreak ·) else c

end Cursor

end Formwork.Yaml
