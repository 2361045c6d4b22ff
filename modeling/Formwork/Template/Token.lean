import Formwork.Template.Error
import Formwork.Text.Digit
import Formwork.Text.Search

/-!
# Tokens of an expression

An expression is a sequence of parentheses, string literals, number literals and words, with blanks
between them wherever one is wanted.

* A **literal** starts and ends with the same quote; inside, a backslash takes the next character
  with it, which must not be a line feed.
* A **word** is the longest run of characters that are no blanks, parentheses or quotes.
* A **number** is a word of digits, with an optional minus sign and an optional fraction, that is
  not directly followed by a quote.
-/

namespace Formwork.Template

open Formwork.Text

/-- A token with its text as it was written. -/
inductive Token where
  | opening
  | closing
  | literal (text : String)
  | number (text : String)
  | word (text : String)
  deriving DecidableEq, Repr

namespace Token

/-- The text of a token as it was written. -/
def text : Token → String
  | .opening => "("
  | .closing => ")"
  | .literal s => s
  | .number s => s
  | .word s => s

/-- The name of a token's kind. -/
def kindName : Token → String
  | .opening => "lparen"
  | .closing => "rparen"
  | .literal _ => "string"
  | .number _ => "number"
  | .word _ => "word"

/-- A quote character. -/
def isQuote (c : Char) : Bool := c == '"' || c == '\''

/-- A character that belongs to words. -/
def isWordPart (c : Char) : Bool := !(isBlank c || c == '(' || c == ')' || isQuote c)

/-- The rest of a literal up to its closing quote, and what follows. -/
def literalBody? (quote : Char) : List Char → Option (List Char × List Char)
  | [] => none
  | '\\' :: c :: rest =>
    if c == '\n' then none
    else (literalBody? quote rest).map fun (body, after) => ('\\' :: c :: body, after)
  | c :: rest =>
    if c == quote then some ([c], rest)
    else if c == '\\' then none
    else (literalBody? quote rest).map fun (body, after) => (c :: body, after)

/-- Digits, possibly with a point and digits after it. -/
def isUnsignedNumber (cs : List Char) : Bool :=
  match cs.span isDecimal with
  | ([], _) => false
  | (_, []) => true
  | (_, '.' :: fraction) => !fraction.isEmpty && fraction.all isDecimal
  | _ => false

/-- The form of a number literal. -/
def isNumber : List Char → Bool
  | '-' :: rest => isUnsignedNumber rest
  | cs => isUnsignedNumber cs

/-- The token at the front of a text that starts with no blank, and what follows it. -/
def next? : List Char → Option (Token × List Char)
  | [] => none
  | '(' :: rest => some (.opening, rest)
  | ')' :: rest => some (.closing, rest)
  | c :: rest =>
    if isQuote c then
      (literalBody? c rest).map fun (body, after) => (.literal (String.ofList (c :: body)), after)
    else
      let (run, after) := (c :: rest).span isWordPart
      let text := String.ofList run
      some (if isNumber run && !after.head?.any isQuote then .number text else .word text, after)

/-- The tokens of a text. Every token is at least one character long, so `fuel` may be the length
of the text. -/
def scan (source : String) : (fuel : Nat) → List Char → Except SyntaxError (List Token)
  | fuel, cs =>
    match cs.dropWhile isBlank, fuel with
    | [], _ => .ok []
    | c :: _, 0 => .error (.unexpectedCharacter c source)
    | c :: rest, fuel + 1 =>
      match next? (c :: rest) with
      | none => .error (.unexpectedCharacter c source)
      | some (token, after) => (scan source fuel after).map (token :: ·)

/-- The tokens of an expression. -/
def tokenize (expression : String) : Except SyntaxError (List Token) :=
  let cs := trim expression.toList
  scan expression cs.length cs

/-- The text that a literal stands for: an escaped quote is the quote, then a doubled backslash is
one backslash. -/
def unquote (text : String) : String :=
  match text.toList with
  | [] => ""
  | quote :: rest =>
    let body := rest.dropLast
    String.ofList (replaceAll ['\\', '\\'] ['\\'] (replaceAll ['\\', quote] [quote] body))

end Token

end Formwork.Template
