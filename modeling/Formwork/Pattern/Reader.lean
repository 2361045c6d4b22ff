import Formwork.Number.Numeral
import Formwork.Pattern.Expression

/-!
# Reading patterns

A pattern is read in two steps: its characters are joined to symbols, where a backslash and the
character after it are one, and the symbols are read as an expression.

* A repetition needs something to repeat, which is neither an anchor nor a repetition.
* A reference needs a group that is closed.
* Flags for the whole pattern stand at its start, and name one alphabet.
* What is looked for behind a place has one width, and refers to no group that begins there.

Alphabets and widths are looked at when the whole pattern has been read.
-/

namespace Formwork.Pattern

open Formwork.Text

/-- Why a pattern is not read. -/
inductive PatternFault where
  | malformed
  /-- A repetition count that is too large. -/
  | tooManyTimes
  /-- A repetition count with more digits than a numeral may have. -/
  | numeralTooLong (digits : Nat)
  /-- The code of a character that is no machine integer. -/
  | codeTooLarge
  /-- The flags ask for ASCII and for all characters. -/
  | mixedAlphabets
  deriving DecidableEq

/-- The least repetition count that is too large. -/
def repetitionLimit : Nat := Nat.pow 2 32 - 1

/-- The greatest number of groups, and one more. -/
def groupLimit : Nat := Nat.pow 2 30

/-- A symbol of a pattern: a character, alone or after a backslash. -/
structure Symbol where
  escaped : Bool
  char : Char
  deriving DecidableEq

/-- The symbols of a pattern, and whether it ends with the last of them. -/
def Symbol.all : List Char → List Symbol × Bool
  | [] => ([], true)
  | '\\' :: c :: rest =>
    let (symbols, complete) := Symbol.all rest
    (⟨true, c⟩ :: symbols, complete)
  | '\\' :: [] => ([], false)
  | c :: rest =>
    let (symbols, complete) := Symbol.all rest
    (⟨false, c⟩ :: symbols, complete)

/-- Whether a symbol is this character, alone. -/
def Symbol.is (s : Symbol) (c : Char) : Bool := !s.escaped && s.char == c

/-- What a group is known by. A group that is still open has no width. -/
structure GroupInfo where
  name : Option String
  width : Option Width
  deriving DecidableEq

/-- Where reading stands. -/
structure Reading where
  rest : List Symbol
  flags : Flags
  /-- The groups in the order in which they were opened. -/
  groups : List GroupInfo
  /-- The number of groups when the outermost look behind began. -/
  behindFrom : Option Nat
  /-- The groups that conditions name, which must exist in the end. -/
  conditions : List Nat
  /-- Whether the whole pattern is said to be one of all characters. -/
  wide : Bool
  /-- Whether something of several widths is looked for behind a place. -/
  uneven : Bool

/-- The outcome of reading. -/
abbrev Attempt := Except PatternFault

/-- A result and where reading stands then. -/
abbrev After (α : Type) := α × Reading

/-- An item of a sequence, with what counts when it is followed by a repetition mark. -/
structure Piece where
  expr : Expr
  isAnchor : Bool
  isRepetition : Bool

/-- An item that can be repeated. -/
def Piece.plain (e : Expr) : Piece := ⟨e, false, false⟩

namespace Reading

/-- Fails. -/
def fail {α : Type} : Except PatternFault α := .error .malformed

/-- Whether the next symbol is this character, alone. -/
def sees (r : Reading) (c : Char) : Bool := r.rest.head?.any (·.is c)

/-- Where reading stands after the next symbol. -/
def skip (r : Reading) : Reading := { r with rest := r.rest.tail }

/-- Passes over a character, if it is next. -/
def accept (r : Reading) (c : Char) : Bool × Reading :=
  if r.sees c then (true, r.skip) else (false, r)

/-- Passes over a character that must be next. -/
def expect (r : Reading) (c : Char) : Except PatternFault Reading :=
  if r.sees c then .ok r.skip else fail

/-- The number of the next group. -/
def nextGroup (r : Reading) : Nat := r.groups.length + 1

/-- What is known of a group by its number. -/
def groupInfo? (r : Reading) (index : Nat) : Option GroupInfo :=
  if index = 0 then none else r.groups[index - 1]?

/-- The number of the group with a name. -/
def groupNamed? (r : Reading) (name : String) : Option Nat :=
  (r.groups.findIdx? fun g => g.name == some name).map (· + 1)

/-- The width of a group that may be referred to. -/
def recallable (r : Reading) (index : Nat) : Except PatternFault Width :=
  match (r.groupInfo? index).bind GroupInfo.width with
  | none => fail
  | some w =>
    match r.behindFrom with
    | some n => if n < index then fail else .ok w
    | none => .ok w

end Reading

open Reading

/-! ## Characters -/

/-- The digits of a numeral in front. -/
def takeDigits (allowed : Char → Bool) : (limit : Nat) → List Symbol → List Char × List Symbol
  | 0, rest => ([], rest)
  | _, [] => ([], [])
  | limit + 1, s :: rest =>
    if !s.escaped && allowed s.char then
      let (cs, after) := takeDigits allowed limit rest
      (s.char :: cs, after)
    else ([], s :: rest)

def isOctal (c : Char) : Bool := '0' ≤ c && c ≤ '7'

/-- A digit of hexadecimal notation. -/
def isHexadecimal (c : Char) : Bool :=
  c.isDigit || ('a' ≤ c && c ≤ 'f') || ('A' ≤ c && c ≤ 'F')

/-- The value of a digit in any notation up to sixteen. -/
def digitOf (c : Char) : Nat :=
  if c.isDigit then c.toNat - 48 else c.toLower.toNat - 87

/-- The number that digits stand for. -/
def numberOf (base : Nat) (cs : List Char) : Nat := cs.foldl (fun n c => base * n + digitOf c) 0

/-- A character by the number of its code, with exactly this many hexadecimal digits. -/
def codeEscape (count : Nat) (r : Reading) : Attempt (After Nat) :=
  let (cs, rest) := takeDigits isHexadecimal count r.rest
  let n := numberOf 16 cs
  if cs.length ≠ count then fail
  else if n < 0x110000 then .ok (n, { r with rest := rest })
  else if n < Numeral.machineLimit then fail
  else .error .codeTooLarge

/-- The characters with a letter of their own. -/
def letterEscape? : Char → Option Nat
  | 'a' => some 7
  | 'f' => some 12
  | 'n' => some 10
  | 'r' => some 13
  | 't' => some 9
  | 'v' => some 11
  | '\\' => some 92
  | _ => none

/-- The classes with a letter, and whether the letter stands for what is outside of them. -/
def categoryEscape? : Char → Option (Category × Bool)
  | 'd' => some (.digit, false)
  | 'D' => some (.digit, true)
  | 's' => some (.space, false)
  | 'S' => some (.space, true)
  | 'w' => some (.word, false)
  | 'W' => some (.word, true)
  | _ => none

/-- The set of some items under the current flags. -/
def setOf (r : Reading) (items : List SetItem) (negated : Bool) : Expr :=
  .char ⟨items, negated, r.flags.ignoreCase, r.flags.ascii⟩

/-- One character under the current flags. -/
def literal (r : Reading) (code : Nat) : Expr := setOf r [.range code code] false

/-- A letter of ASCII. -/
def isLetter (c : Char) : Bool := ('a' ≤ c && c ≤ 'z') || ('A' ≤ c && c ≤ 'Z')

/-- A character that stands for itself after a backslash. -/
def plainEscape (c : Char) (r : Reading) : Attempt (After Nat) :=
  if isLetter c then fail else .ok (c.toNat, r)

/-- An octal escape after its first digits. -/
def octalEscape (digits : List Char) (r : Reading) : Attempt (After Nat) :=
  let n := numberOf 8 digits
  if 0o377 < n then fail else .ok (n, r)

/-- An escape within a set. -/
def setEscape (c : Char) (r : Reading) : Attempt (After SetItem) :=
  let code (x : Attempt (After Nat)) : Attempt (After SetItem) :=
    x.map fun (n, r) => (.range n n, r)
  match letterEscape? c, categoryEscape? c with
  | some n, _ => .ok (.range n n, r)
  | none, some (k, negated) => .ok (.category k negated, r)
  | none, none =>
    if c == 'b' then .ok (.range 8 8, r)
    else if c == 'x' then code (codeEscape 2 r)
    else if c == 'u' then code (codeEscape 4 r)
    else if c == 'U' then code (codeEscape 8 r)
    else if isOctal c then
      let (cs, rest) := takeDigits isOctal 2 r.rest
      code (octalEscape (c :: cs) { r with rest := rest })
    else if c.isDigit then fail
    else code (plainEscape c r)

/-! ## Sets -/

/-- An item of a set, or the lower end of a range. -/
def setItem (s : Symbol) (r : Reading) : Attempt (After SetItem) :=
  if s.escaped then setEscape s.char r else .ok (.range s.char.toNat s.char.toNat, r)

/-- The range between two items, if both are characters. -/
def rangeOf : SetItem → SetItem → Except PatternFault SetItem
  | .range low _, .range high _ => if high < low then fail else .ok (.range low high)
  | _, _ => fail

/-- The items of a set up to its end. A bracket that comes first is an item. -/
def setItems : (fuel : Nat) → List SetItem → Reading → Attempt (After (List SetItem))
  | 0, _, _ => fail
  | fuel + 1, items, r =>
    match r.rest with
    | [] => fail
    | s :: _ =>
      if s.is ']' && !items.isEmpty then .ok (items.reverse, r.skip)
      else do
        let (low, r) ← setItem s r.skip
        let (isRange, r) := r.accept '-'
        if !isRange then setItems fuel (low :: items) r
        else
          match r.rest with
          | [] => fail
          | t :: _ =>
            -- A hyphen before the closing bracket stands for itself.
            if t.is ']' then .ok ((.range 45 45 :: low :: items).reverse, r.skip)
            else do
              let (high, r) ← setItem t r.skip
              let item ← rangeOf low high
              setItems fuel (item :: items) r

/-- A set, after its opening bracket. -/
def set (r : Reading) : Attempt (After Expr) := do
  let (negated, r) := r.accept '^'
  let (items, r) ← setItems (r.rest.length + 1) [] r
  .ok (setOf r items negated, r)

/-! ## Escapes outside of sets -/

/-- A reference to a group by its number. -/
def recallGroup (index : Nat) (r : Reading) : Attempt (After Expr) := do
  let w ← r.recallable index
  .ok (.recall index w r.flags.ignoreCase r.flags.ascii, r)

/-- A reference by number or an octal escape, which has three digits. -/
def numberEscape (c : Char) (r : Reading) : Attempt (After Expr) :=
  match takeDigits Char.isDigit 1 r.rest with
  | ([], _) => recallGroup (digitOf c) r
  | (ds, rest) =>
    let r := { r with rest := rest }
    let digits := c :: ds
    match takeDigits isOctal 1 rest with
    | ([e], rest') =>
      -- Three octal digits are a character, whatever groups there are.
      if digits.all isOctal then
        (octalEscape (digits ++ [e]) { r with rest := rest' }).map fun (n, r) => (literal r n, r)
      else recallGroup (numberOf 10 digits) r
    | _ => recallGroup (numberOf 10 digits) r

/-- The anchors with a letter. -/
def anchorEscape? (flags : Flags) : Char → Option Anchor
  | 'A' => some .textStart
  | 'Z' => some .textEnd
  | 'b' => some (.boundary flags.ascii)
  | 'B' => some (.noBoundary flags.ascii)
  | _ => none

/-- An escape. -/
def escape (c : Char) (r : Reading) : Attempt (After Piece) :=
  let code (x : Attempt (After Nat)) : Attempt (After Piece) :=
    x.map fun (n, r) => (.plain (literal r n), r)
  match anchorEscape? r.flags c, categoryEscape? c, letterEscape? c with
  | some a, _, _ => .ok (⟨.anchor a, true, false⟩, r)
  | _, some (k, negated), _ => .ok (.plain (setOf r [.category k negated] false), r)
  | _, _, some n => .ok (.plain (literal r n), r)
  | none, none, none =>
    if c == 'x' then code (codeEscape 2 r)
    else if c == 'u' then code (codeEscape 4 r)
    else if c == 'U' then code (codeEscape 8 r)
    else if c == '0' then
      let (cs, rest) := takeDigits isOctal 2 r.rest
      code (octalEscape cs { r with rest := rest })
    else if c.isDigit then (numberEscape c r).map fun (e, r) => (.plain e, r)
    else code (plainEscape c r)

/-! ## Repetitions -/

/-- A repetition count, or none when there are no digits. -/
def countOf (digits : List Char) : Except PatternFault (Option Nat) :=
  if digits.isEmpty then .ok none
  else if Numeral.maxDigits < digits.length then .error (.numeralTooLong digits.length)
  else if repetitionLimit ≤ numberOf 10 digits then .error .tooManyTimes
  else .ok (some (numberOf 10 digits))

/-- The counts of a repetition after its opening brace; none when it is no repetition. -/
def bracedCounts (r : Reading) : Except PatternFault (Option ((Nat × Option Nat) × Reading)) :=
  let (low, rest) := takeDigits Char.isDigit r.rest.length r.rest
  let (hasComma, r') := { r with rest := rest }.accept ','
  let (high, rest') :=
    if hasComma then takeDigits Char.isDigit r'.rest.length r'.rest else (low, r'.rest)
  let (closed, r'') := { r' with rest := rest' }.accept '\x7d'
  -- Braces with nothing in them, or without an end, are ordinary characters.
  if r.sees '\x7d' || !closed then .ok none
  else do
    let least := (← countOf low).getD 0
    let most ← countOf high
    if most.any (· < least) then fail else .ok (some ((least, most), r''))

/-- The counts of a repetition mark; none when the symbol is no such mark. -/
def repetition (s : Symbol) (r : Reading) :
    Except PatternFault (Option ((Nat × Option Nat) × Reading)) :=
  if s.is '*' then .ok (some ((0, none), r))
  else if s.is '+' then .ok (some ((1, none), r))
  else if s.is '?' then .ok (some ((0, some 1), r))
  else if s.is '\x7b' then bracedCounts r
  else .ok none

/-- Repeats the last item of a sequence, which is given from the last item on. -/
def repeatLast (pieces : List Piece) (counts : Nat × Option Nat) (r : Reading) :
    Attempt (After (List Piece)) :=
  match pieces with
  | [] => fail
  | p :: before =>
    -- There is nothing to repeat in a place, and a repetition is not repeated directly.
    if p.isAnchor || p.isRepetition then fail
    else
      let (isLazy, r) := r.accept '?'
      let (isPossessive, r) := if isLazy then (false, r) else r.accept '+'
      let greed := if isLazy then .lazy else if isPossessive then .possessive else .greedy
      .ok (⟨.times counts.1 counts.2 greed p.expr, false, true⟩ :: before, r)

/-! ## Groups -/

/-- The text up to a closing character, which must come, and not at once. -/
def nameUntil (close : Char) : List Symbol → Except PatternFault (List Char × List Symbol)
  | [] => fail
  | s :: rest =>
    if s.is close then .ok ([], rest)
    else do
      let (cs, after) ← nameUntil close rest
      .ok ((if s.escaped then ['\\', s.char] else [s.char]) ++ cs, after)

/-- A letter or an underscore: what a name begins with. -/
def beginsName (c : Char) : Bool := c == '_' || (isAlphanumeric c && !isDigitForm c)

/-- The form of a group name. -/
def isName : List Char → Bool
  | [] => false
  | c :: cs => beginsName c && cs.all isWordChar

/-- A group name. -/
def groupName (close : Char) (r : Reading) : Attempt (After String) := do
  let (cs, rest) ← nameUntil close r.rest
  if isName cs then .ok (String.ofList cs, { r with rest := rest }) else fail

/-- Opens the next group. -/
def openGroup (name : Option String) (r : Reading) : Except PatternFault Reading :=
  if groupLimit ≤ r.nextGroup || name.any (fun n => (r.groupNamed? n).isSome) then fail
  else .ok { r with groups := r.groups ++ [⟨name, none⟩] }

/-- Closes a group. -/
def closeGroup (index : Nat) (w : Width) (r : Reading) : Reading :=
  { r with groups := r.groups.modify (index - 1) fun g => { g with width := some w } }

/-- A comment, up to the closing parenthesis. -/
def comment : List Symbol → Except PatternFault (List Symbol)
  | [] => fail
  | s :: rest => if s.is ')' then .ok rest else comment rest

/-- The flag letters that a group may turn on and off. -/
def setFlag (on : Bool) (flags : Flags) : Char → Option Flags
  | 'i' => some { flags with ignoreCase := on }
  | 'm' => some { flags with multiline := on }
  | 's' => some { flags with dotAll := on }
  | 'x' => some { flags with verbose := on }
  | _ => none

/-- The letters that say which characters a class holds; only one of them may be given. -/
def isKindFlag (c : Char) : Bool := c == 'a' || c == 'u'

/-- The flag letters at the start of a group: those that are turned on, those that are turned off,
and the character that ends them. -/
def flagLetters : List Symbol → Except PatternFault (List Char × List Char × Char × List Symbol)
  | [] => fail
  | s :: rest =>
    if s.is ')' then .ok ([], [], ')', rest)
    else if s.is ':' then .ok ([], [], ':', rest)
    else if s.is '-' then do
      let (off, after) ← nameUntil ':' rest
      if off.isEmpty then fail else .ok ([], off, ':', after)
    else if s.escaped then fail
    else do
      let (on, off, stop, after) ← flagLetters rest
      .ok (s.char :: on, off, stop, after)

/-- The flags after some letters. -/
def applyFlags (on off : List Char) (flags : Flags) : Except PatternFault Flags := do
  let kinds := (on.filter isKindFlag).eraseDups
  if 1 < kinds.length || on.any off.contains then fail
  else do
    let flags := if kinds = ['a'] then { flags with ascii := true }
      else if kinds = ['u'] then { flags with ascii := false } else flags
    let flags ← (on.filter fun c => !isKindFlag c).foldlM (fun f c =>
      match setFlag true f c with
      | some f => .ok f
      | none => fail) flags
    off.foldlM (fun f c =>
      match setFlag false f c with
      | some f => .ok f
      | none => fail) flags

/-- What opens a parenthesis. -/
inductive Opening where
  | capture (name : Option String)
  | plain
  | atomic
  | ahead (negated : Bool)
  | behind (negated : Bool)
  | scoped (flags : Flags)
  | condition (index : Nat)
  /-- Not a group: an expression of its own, or nothing. -/
  | done (piece : Option Piece)
  /-- Flags for the whole pattern, and whether they name all characters. -/
  | globalFlags (flags : Flags) (wide : Bool)

/-- The group that a condition names. -/
def conditionGroup (r : Reading) : Attempt (After Nat) := do
  let (cs, rest) ← nameUntil ')' r.rest
  let name := String.ofList cs
  let r := { r with rest := rest }
  let index ← (if isName cs then
      match r.groupNamed? name with
      | some index => .ok index
      | none => fail
    else
      match Numeral.int? name with
      | some n => if n ≤ 0 || (groupLimit : Int) ≤ n then fail else .ok n.toNat
      | none => fail)
  match r.behindFrom with
  | some _ => do
    let _ ← r.recallable index
    .ok (index, { r with conditions := index :: r.conditions })
  | none => .ok (index, { r with conditions := index :: r.conditions })

/-- A reference to a group by its name, after the opening. -/
def namedRecall (r : Reading) : Attempt (After Opening) := do
  let (name, r) ← groupName ')' r
  match r.groupNamed? name with
  | some index => do
    let (e, r) ← recallGroup index r
    .ok (.done (some (.plain e)), r)
  | none => fail

/-- What follows `(?`. -/
def extension (s : Symbol) (r : Reading) : Attempt (After Opening) :=
  if s.is 'P' then
    if r.sees '<' then do
      let (name, r) ← groupName '>' r.skip
      .ok (.capture (some name), r)
    else if r.sees '=' then namedRecall r.skip
    else fail
  else if s.is ':' then .ok (.plain, r)
  else if s.is '#' then do
    let rest ← comment r.rest
    .ok (.done none, { r with rest := rest })
  else if s.is '=' then .ok (.ahead false, r)
  else if s.is '!' then .ok (.ahead true, r)
  else if s.is '<' then
    if r.sees '=' then .ok (.behind false, r.skip)
    else if r.sees '!' then .ok (.behind true, r.skip)
    else fail
  else if s.is '(' then do
    let (index, r) ← conditionGroup r
    .ok (.condition index, r)
  else if s.is '>' then .ok (.atomic, r)
  else if s.is ')' then fail
  else do
    let (on, off, stop, rest) ← flagLetters (s :: r.rest)
    let flags ← applyFlags on off r.flags
    let r := { r with rest := rest }
    if stop == ')' then .ok (.globalFlags flags (on.contains 'u'), r) else .ok (.scoped flags, r)

/-- What an opening parenthesis begins. -/
def opening (r : Reading) : Attempt (After Opening) :=
  if r.sees '?' then
    match r.skip.rest with
    | [] => fail
    | s :: _ => extension s r.skip.skip
  else .ok (.capture none, r)

/-! ## Expressions -/

/-- Skips a comment of a verbose pattern, up to the end of its line. -/
def skipLine : List Symbol → List Symbol
  | [] => []
  | s :: rest => if s.is '\n' then rest else skipLine rest

/-- White space of a verbose pattern. -/
def isVerboseSpace (s : Symbol) : Bool := !s.escaped && " \t\n\r\x0b\x0c".toList.contains s.char

/-- The expression of a look ahead. -/
def aheadExpr (negated : Bool) (body : Expr) : Expr :=
  if negated && body == .empty then .nothing else .ahead negated body

/-- The expression of a look behind, if what is looked for has one width. -/
def behindExpr? (negated : Bool) (body : Expr) : Option Expr :=
  body.width.fixed?.map fun w =>
    if negated && body == .empty then .nothing else .behind negated w body

mutual

/-- Alternatives, up to the end or a closing parenthesis. `top` says that no group is open. -/
def alternatives (top : Bool) : (fuel : Nat) → List Expr → Reading → Attempt (After Expr)
  | 0, _, _ => fail
  | fuel + 1, before, r => do
    let (pieces, r) ← sequence (top && before.isEmpty) fuel [] r
    let here := Expr.sequence (pieces.reverse.map Piece.expr)
    if r.sees '|' then alternatives top fuel (here :: before) r.skip
    else .ok (Expr.alternatives (here :: before).reverse, r)

/-- Items one after another, given and returned from the last one on. `first` says that flags for
the whole pattern may still come. -/
def sequence (first : Bool) : (fuel : Nat) → List Piece → Reading → Attempt (After (List Piece))
  | 0, _, _ => fail
  | fuel + 1, pieces, r =>
    match r.rest with
    | [] => .ok (pieces, r)
    | s :: _ =>
      if s.is '|' || s.is ')' then .ok (pieces, r)
      else
        let r := r.skip
        if r.flags.verbose && isVerboseSpace s then sequence first fuel pieces r
        else if r.flags.verbose && s.is '#' then
          sequence first fuel pieces { r with rest := skipLine r.rest }
        else if s.escaped then do
          let (p, r) ← escape s.char r
          sequence first fuel (p :: pieces) r
        else if s.is '[' then do
          let (e, r) ← set r
          sequence first fuel (.plain e :: pieces) r
        else if s.is '.' then
          let e := if r.flags.dotAll then setOf r [] true else setOf r [.range 10 10] true
          sequence first fuel (.plain e :: pieces) r
        else if s.is '^' then
          let a := if r.flags.multiline then .lineStart else .textStart
          sequence first fuel (⟨.anchor a, true, false⟩ :: pieces) r
        else if s.is '$' then
          let a := if r.flags.multiline then .lineEnd else .lastLineEnd
          sequence first fuel (⟨.anchor a, true, false⟩ :: pieces) r
        else if s.is '(' then do
          let (p, r) ← parenthesis (first && pieces.isEmpty) fuel r
          sequence first fuel (p.toList ++ pieces) r
        else do
          match ← repetition s r with
          | some (counts, r) => do
            let (pieces, r) ← repeatLast pieces counts r
            sequence first fuel pieces r
          | none => sequence first fuel (.plain (literal r s.char.toNat) :: pieces) r

/-- What stands in parentheses, after the opening one. -/
def parenthesis (first : Bool) : (fuel : Nat) → Reading → Attempt (After (Option Piece))
  | 0, _ => fail
  | fuel + 1, r => do
    let (opened, r) ← opening r
    match opened with
    | .done p => .ok (p, r)
    | .globalFlags flags wide =>
      -- Flags for the whole pattern are only turned on.
      let flags := { flags with ascii := flags.ascii || r.flags.ascii }
      if first then .ok (none, { r with flags := flags, wide := r.wide || wide }) else fail
    | .capture name => do
      let index := r.nextGroup
      let (body, r) ← alternatives false fuel [] (← openGroup name r)
      let r ← r.expect ')'
      .ok (some (.plain (.group index body)), closeGroup index body.width r)
    | .plain => do
      let (body, r) ← alternatives false fuel [] r
      .ok (some (.plain body), ← r.expect ')')
    | .atomic => do
      let (body, r) ← alternatives false fuel [] r
      .ok (some (.plain (.atomic body)), ← r.expect ')')
    | .scoped flags => do
      let outer := r.flags
      let (body, r) ← alternatives false fuel [] { r with flags := flags }
      let r ← r.expect ')'
      .ok (some (.plain body), { r with flags := outer })
    | .ahead negated => do
      let (body, r) ← alternatives false fuel [] r
      .ok (some (.plain (aheadExpr negated body)), ← r.expect ')')
    | .behind negated => do
      let outer := r.behindFrom
      let inner := outer.getD r.groups.length
      let (body, r) ← alternatives false fuel [] { r with behindFrom := some inner }
      let r := { (← r.expect ')') with behindFrom := outer }
      match behindExpr? negated body with
      | some e => .ok (some (.plain e), r)
      | none => .ok (some (.plain .nothing), { r with uneven := true })
    | .condition index => do
      let (yes, r) ← sequence false fuel [] r
      let yes := Expr.sequence (yes.reverse.map Piece.expr)
      if r.sees '|' then do
        let (no, r) ← sequence false fuel [] r.skip
        let no := Expr.sequence (no.reverse.map Piece.expr)
        .ok (some (.plain (.choose index yes no)), ← r.expect ')')
      else .ok (some (.plain (.choose index yes .empty)), ← r.expect ')')

end

/-- More steps than reading takes. -/
def readingBound (symbols : List Symbol) : Nat := 4 * symbols.length + 8

/-- Reads symbols, which may go on after the expression. -/
def readFront (symbols : List Symbol) : Attempt (After Expr) :=
  alternatives true (readingBound symbols) [] ⟨symbols, .none, [], none, [], false, false⟩

/-- Reads a pattern. -/
def read (s : String) : Except PatternFault Expr :=
  match Symbol.all s.toList with
  | (symbols, true) => do
    let (e, r) ← readFront symbols
    if r.flags.ascii && r.wide then .error .mixedAlphabets
    else if !r.rest.isEmpty || r.uneven || r.conditions.any (r.groups.length < ·) then fail
    else .ok e
  | (symbols, false) =>
    -- A pattern that ends within a symbol is told to be malformed where the symbol before is read.
    match readFront symbols.dropLast with
    | .error fault => .error fault
    | .ok _ => fail

end Formwork.Pattern
