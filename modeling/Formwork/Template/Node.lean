import Formwork.Template.Printed
import Formwork.Text.Lines

/-!
# The form of a template

The tags of a template, with its blocks closed, make a tree. Not every sequence of tags that can be
read makes a well-formed one: a block has at most one `else`, and a number literal is written without
leading zeros.

Texts are settled on the way: every line ends with a line feed, and one line feed at the end of the
whole template is dropped, unless it is protected. A protected text is shown as it is up to the end
of a protection in it; what stands behind that belongs to the block template itself.
-/

namespace Formwork.Template

open Formwork.Text

/-- A part of a template. -/
inductive Node where
  | text (s : String)
  | output (e : Expr)
  /-- The body if the condition holds, or fails when `negated`; the other part otherwise. -/
  | choose (negated : Bool) (condition : Expr) (body otherwise : List Node)
  /-- The body for each item in the scope of this level; the other part when there is none. -/
  | each (level : Nat) (items : Expr) (body otherwise : List Node)

/-! ## Texts -/

/-- Neighbouring texts without marks joined into one, unless a mark would come of it. -/
def joinTexts : List Tag → List Tag
  | [] => []
  | .text s :: rest =>
    match joinTexts rest with
    | .text t :: more =>
      -- A protected text is printed on its own, so its neighbours stay apart from it; and a text
      -- that is joined must not look like a protected one.
      if needsProtection (s ++ t) then .text s :: .text t :: more
      else .text (s ++ t) :: more
    | more => if s.isEmpty then more else .text s :: more
  | t :: rest => t :: joinTexts rest

/-- A text without a line feed at its end. -/
def dropFinalLine (cs : List Char) : List Char :=
  match cs.reverse with
  | '\n' :: rest => rest.reverse
  | _ => cs

/-- The tags with their lines settled. -/
def settleTexts : List Tag → List Tag
  | [] => []
  | [.text s] =>
    let lines := normalizeLines s.toList
    [.text (String.ofList (if needsProtection s then lines else dropFinalLine lines))]
  | .text s :: rest => .text (String.ofList (normalizeLines s.toList)) :: settleTexts rest
  | t :: rest => t :: settleTexts rest

/-- The end of a protected text at the front: its mark, a sign, blanks, the word, blanks, a mark. -/
def endsProtection (cs : List Char) : Bool :=
  match "\x7b%".toList.isPrefixOf? cs with
  | none => false
  | some rest =>
    let rest := match rest with
      | '-' :: more => more
      | '+' :: more => more
      | more => more
    match "endraw".toList.isPrefixOf? (rest.dropWhile isBlank) with
    | none => false
    | some rest =>
      let rest := rest.dropWhile isBlank
      ["%\x7d", "+%\x7d", "-%\x7d"].any fun m => m.toList.isPrefixOf rest

/-- Whether a text holds the end of a protected text. -/
def holdsProtectionEnd : List Char → Bool
  | [] => false
  | c :: rest => endsProtection (c :: rest) || holdsProtectionEnd rest

/-- The text behind a statement of one word at the front. -/
def behindWord? (word : String) (cs : List Char) : Option (List Char) := do
  let rest ← "\x7b%".toList.isPrefixOf? cs
  let rest ← word.toList.isPrefixOf? (rest.dropWhile isBlank)
  "%\x7d".toList.isPrefixOf? (rest.dropWhile isBlank)

/-- A key in brackets at the front, and the text behind it. The key is written without escapes, and is
neither an index nor has it characters that a path would split. -/
def bracketedKey? (cs : List Char) : Option (String × List Char) := do
  let rest ← "[\"".toList.isPrefixOf? cs
  let (key, rest) := rest.span (· != '"')
  guard (key.all (fun c => c != '\\' && c.toNat ≤ 0xFFFF) && !isDigits key)
  let rest ← "\"]".toList.isPrefixOf? rest
  some (String.ofList key, rest)

/-- The keys in brackets at the front, and the text behind them. -/
def bracketedKeys : (fuel : Nat) → List Char → List String × List Char
  | 0, cs => ([], cs)
  | fuel + 1, cs =>
    match bracketedKey? cs with
    | none => ([], cs)
    | some (key, rest) =>
      let (keys, behind) := bracketedKeys fuel rest
      (key :: keys, behind)

/-- The value of the context that a statement at the front prints, and the text behind it. -/
def printedPath? (cs : List Char) : Option (Reference × List Char) := do
  let rest ← "\x7b%".toList.isPrefixOf? cs
  let rest ← "print".toList.isPrefixOf? (rest.dropWhile isBlank)
  guard (rest.head?.any isBlank)
  let rest ← Base.context.print.toList.isPrefixOf? (rest.dropWhile isBlank)
  let (keys, rest) := bracketedKeys rest.length rest
  let rest ← "%\x7d".toList.isPrefixOf? (rest.dropWhile isBlank)
  some (⟨.context, keys.map .key⟩, rest)

/-- Whether a mark at the front opens something. -/
def opensMark (cs : List Char) : Bool :=
  ["\x7b%", "\x7b#", "\x7b\x7b"].any fun m => m.toList.isPrefixOf cs

/--
The parts of the rest of a protected text, which is (`shielded`) or is not protected at this point;
`data` are the characters before it that are shown as they are, the last one first. The mark that
closes the protection comes behind the text, and has to find it open.
-/
def textParts : (fuel : Nat) → (shielded : Bool) → (data : List Char) → List Char →
    Except FormFault (List Node)
  | _, true, data, [] => .ok [.text (String.ofList data.reverse)]
  | _, false, _, [] => .error .protectedText
  | 0, _, _, _ :: _ => .error .foreignStatement
  | fuel + 1, true, data, c :: rest =>
    if endsProtection (c :: rest) then
      match behindWord? "endraw" (c :: rest) with
      | some behind => textParts fuel false data behind
      -- A sign in the mark takes blanks away.
      | none => .error .foreignStatement
    else textParts fuel true (c :: data) rest
  | fuel + 1, false, data, c :: rest =>
    if endsProtection (c :: rest) then .error .protectedText
    else
      match behindWord? "raw" (c :: rest), printedPath? (c :: rest) with
      | some behind, _ => textParts fuel true data behind
      | none, some (r, behind) => do
        let more ← textParts fuel false [] behind
        .ok (.text (String.ofList data.reverse) :: .output (.reference r) :: more)
      | none, none =>
        if opensMark (c :: rest) then .error .foreignStatement
        else textParts fuel false (c :: data) rest

/-- The parts of a text as it is printed. -/
def Node.ofText (s : String) : Except FormFault (List Node) :=
  if needsProtection s then textParts s.toList.length true [] s.toList else .ok [.text s]

/-! ## Number literals -/

/-- The value of a number literal without its sign. -/
def unsignedNumber (negative : Bool) (cs : List Char) : Except FormFault Value :=
  let value (ds : List Char) : Nat := Numeral.ofDigits (ds.filterMap digitValue?)
  match cs.span (· != '.') with
  | (whole, []) =>
    let leading := whole.head?.any fun c => '1' ≤ c && c ≤ '9'
    -- A literal may be all zeros, but no other digit may follow a leading zero.
    if !leading && !whole.all (· == '0') then .error .numberLiteral
    else if Numeral.maxDigits < whole.length then .error (.numeralTooLong whole.length)
    else .ok (.int (if negative then -(value whole : Int) else value whole))
  | (whole, _ :: fraction) =>
    if (whole ++ fraction).all fun c => c.toNat < 128 then
      .ok (.float (Binary64.ofDecimal negative (value (whole ++ fraction)) (-fraction.length)))
    else .error .foreignDecimal

/-- The value of a number literal. -/
def numberLiteral (text : String) : Except FormFault Value :=
  match text.toList with
  | '-' :: rest => unsignedNumber true rest
  | cs => unsignedNumber false cs

mutual

/-- Whether all number literals of an expression are well formed. -/
def Expr.check : Expr → Except FormFault Unit
  | .call _ args => Expr.checkAll args
  | .number text => (numberLiteral text).map fun _ => ()
  | _ => .ok ()

/-- Whether all number literals of the arguments are well formed. -/
def Expr.checkAll : List Expr → Except FormFault Unit
  | [] => .ok ()
  | e :: es => do
    e.check
    Expr.checkAll es

end

/-! ## Blocks -/

/-- What opens a block. -/
inductive Opener where
  | choose (negated : Bool) (condition : Expr)
  | each (level : Nat) (items : Expr)

/-- The block that an opener and its parts make. -/
def Opener.node : Opener → (body otherwise : List Node) → Node
  | .choose negated e, body, otherwise => .choose negated e body otherwise
  | .each level e, body, otherwise => .each level e body otherwise

/-- A block whose closing tag has not been read: its opener, the finished first part if its `else`
has been read, and the nodes around it, the last one first. -/
structure Unfinished where
  opener : Opener
  body? : Option (List Node)
  around : List Node

/-- The finished block, given the nodes read last, the last one first. -/
def Unfinished.finish (u : Unfinished) (nodes : List Node) : Node :=
  match u.body? with
  | none => u.opener.node nodes.reverse []
  | some body => u.opener.node body nodes.reverse

/-- Nests the tags inside the open blocks; `nodes` are those read in the innermost one, the last
one first. -/
def nest (blocks : List Unfinished) (nodes : List Node) : List Tag → Except FormFault (List Node)
  | [] => .ok nodes.reverse
  | .text s :: rest => do
    let parts ← Node.ofText s
    nest blocks (parts.reverse ++ nodes) rest
  | .output e :: rest => do
    e.check
    nest blocks (.output e :: nodes) rest
  | .openIf negated e :: rest => do
    e.check
    nest (⟨.choose negated e, none, nodes⟩ :: blocks) [] rest
  | .openEach level e :: rest => do
    e.check
    nest (⟨.each level e, none, nodes⟩ :: blocks) [] rest
  | .otherwise :: rest =>
    match blocks with
    -- An opener whose first part is finished has had its `else`.
    | ⟨opener, none, around⟩ :: outer =>
      nest (⟨opener, some nodes.reverse, around⟩ :: outer) [] rest
    | _ => .error .secondElse
  | .closeIf :: rest =>
    match blocks with
    | u :: outer => nest outer (u.finish nodes :: u.around) rest
    -- A closing tag outside all blocks is refused before tags are made.
    | [] => nest [] nodes rest
  | .closeEach :: rest =>
    match blocks with
    | u :: outer => nest outer (u.finish nodes :: u.around) rest
    | [] => nest [] nodes rest

/-- The form of a template. -/
def Node.ofTags (tags : List Tag) : Except FormFault (List Node) :=
  nest [] [] (settleTexts (joinTexts tags))

end Formwork.Template
