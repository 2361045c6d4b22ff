import Formwork.Json.Writer
import Formwork.Number.Numeral
import Formwork.Template.Helper
import Formwork.Template.Token

/-!
# Expressions

An expression is a tree of helper calls over literals and references. The grammar of its tokens is

    mustache ::= helper term* | term
    term     ::= '(' helper term* ')' | literal | number | word

where a helper is a word that names one, and a word in the place of a term is a constant or a path.
A path is resolved while it is read, against the chain of item scopes that are open there: the
innermost first, each known by its level.
-/

namespace Formwork.Template

open Formwork.Text

/-- What a path starts from. -/
inductive Base where
  | context
  /-- The current item of the scope of this level. -/
  | item (level : Nat)
  /-- The position of the current item. -/
  | index (level : Nat)
  | isFirst (level : Nat)
  | isLast (level : Nat)
  deriving DecidableEq, Repr

/-- One step of a path. -/
inductive Step where
  | index (n : Nat)
  | key (name : String)
  deriving DecidableEq, Repr

/-- A resolved path. -/
structure Reference where
  base : Base
  steps : List Step
  deriving DecidableEq, Repr

/-- An expression. -/
inductive Expr where
  | call (helper : Helper) (args : List Expr)
  | literal (text : String)
  | number (text : String)
  | bool (b : Bool)
  | absent
  | reference (r : Reference)
  deriving Repr

instance : Inhabited Expr := ⟨.absent⟩

/-- The step that a path segment takes: a segment of digit forms is an index. -/
def Step.ofSegment (segment : String) : Except SyntaxError Step :=
  if isDigits segment.toList then
    match Numeral.readInt segment with
    | .int n => .ok (.index n.toNat)
    | .tooLong digits => .error (.numeralTooLong digits)
    | .malformed => .error (.notANumeral segment)
  else .ok (.key segment)

/-- The leading `../` parts of a path: their number, and the rest. -/
def parentSteps : List Char → Nat × List Char
  | '.' :: '.' :: '/' :: rest =>
    let (depth, path) := parentSteps rest
    (depth + 1, path)
  | path => (0, path)

/-- A path without a leading `./`. -/
def dropCurrent : List Char → List Char
  | '.' :: '/' :: rest => rest
  | path => path

/-- The scope that is left after walking out of `depth` scopes: `some none` is the context. -/
def scopeAbove? (scopes : List Nat) (depth : Nat) : Option (Option Nat) :=
  if scopes.length < depth then none else some scopes[depth]?

/-- The base of an `@` name: a loop position inside a scope, a key of the context otherwise. -/
def bindingBase (scope : Option Nat) (name : String) : Reference :=
  match scope, name with
  | some level, "@index" => ⟨.index level, []⟩
  | some level, "@first" => ⟨.isFirst level, []⟩
  | some level, "@last" => ⟨.isLast level, []⟩
  | _, _ => ⟨.context, [.key name]⟩

/-- What the item names of a scope start from. -/
def itemBase : Option Nat → Base
  | some level => .item level
  | none => .context

/-- Resolves a path against the open scopes, innermost first. -/
def Reference.ofPath (scopes : List Nat) (path : String) : Except SyntaxError Reference :=
  if path.toList.contains '=' then .error (.hashArgument path)
  else
    let (depth, rest) := parentSteps path.toList
    let rest := dropCurrent rest
    match scopeAbove? scopes depth with
    | none =>
      .error (.aboveRoot (String.ofList ((List.replicate depth ['.', '.', '/']).flatten ++ rest)))
    | some scope =>
      if rest.head? == some '@' then do
        let (name, tail) := rest.span (· != '.')
        let base := bindingBase scope (String.ofList name)
        -- A point with nothing behind it adds no step.
        let segments := if tail.length ≤ 1 then [] else (tail.drop 1).splitOn '.'
        let steps ← segments.mapM fun s => Step.ofSegment (String.ofList s)
        .ok ⟨base.base, base.steps ++ steps⟩
      else
        match (rest.splitOn '.').filter (!·.isEmpty) with
        | [] => .error (.emptyPath (String.ofList rest))
        | first :: more => do
          -- The item itself is named only by the first segment.
          let segments := if first == "this".toList then more else first :: more
          let steps ← segments.mapM fun s => Step.ofSegment (String.ofList s)
          .ok ⟨itemBase scope, steps⟩

/-- The term that a word stands for. -/
def Expr.ofWord (scopes : List Nat) (word : String) : Except SyntaxError Expr :=
  if word == "true" then .ok (.bool true)
  else if word == "false" then .ok (.bool false)
  else if word == "null" || word == "undefined" then .ok .absent
  else (Reference.ofPath scopes word).map .reference

namespace Expr

/-- A call whose closing parenthesis has not been read: its arguments so far, the last one first. -/
structure OpenCall where
  helper : Helper
  args : List Expr

/-- The finished call. -/
def OpenCall.close (c : OpenCall) : Expr := .call c.helper c.args.reverse

/-- The same call with one more argument. -/
def OpenCall.push (c : OpenCall) (e : Expr) : OpenCall := ⟨c.helper, e :: c.args⟩

/--
Reads the rest of an expression inside the call `innermost`, itself inside the calls `outer`. When
the outermost call has no parentheses (`bare`), the end of the tokens closes it; when it has them,
nothing may follow their end, and `first` is what is reported then.
-/
def readCalls (scopes : List Nat) (source first : String) (bare : Bool)
    (innermost : OpenCall) (outer : List OpenCall) : List Token → Except SyntaxError Expr
  | [] =>
    if bare && outer.isEmpty then .ok innermost.close else .error (.missingClose source)
  | .closing :: rest =>
    match outer with
    | parent :: outer => readCalls scopes source first bare (parent.push innermost.close) outer rest
    | [] =>
      if bare then .error (.unbalancedClose source)
      else if rest.isEmpty then .ok innermost.close
      else .error (.unknownHelper first source)
  | .opening :: .word name :: rest =>
    match Helper.ofName? name with
    | some h => readCalls scopes source first bare ⟨h, []⟩ (innermost :: outer) rest
    | none => .error (.unknownNestedHelper name source)
  | .opening :: token :: _ => .error (.unknownNestedHelper token.text source)
  | [.opening] => .error (.missingHelperName source)
  | .literal text :: rest =>
    readCalls scopes source first bare (innermost.push (.literal (Token.unquote text))) outer rest
  | .number text :: rest =>
    readCalls scopes source first bare (innermost.push (.number text)) outer rest
  | .word text :: rest =>
    match ofWord scopes text with
    | .ok e => readCalls scopes source first bare (innermost.push e) outer rest
    | .error e => .error e

/-- A term that is all there is. -/
def alone (source : String) (first : Token) (rest : List Token) (term : Except SyntaxError Expr) :
    Except SyntaxError Expr :=
  match term with
  | .error e => .error e
  | .ok e => if rest.isEmpty then .ok e else .error (.unknownHelper first.text source)

/-- Reads the tokens of an expression. -/
def ofTokens (scopes : List Nat) (source : String) : List Token → Except SyntaxError Expr
  | [] => .error .emptyExpression
  | .closing :: _ => .error (.unbalancedClose source)
  | [.opening] => .error (.missingHelperName source)
  | .opening :: .word name :: rest =>
    match Helper.ofName? name with
    | some h => readCalls scopes source "(" false ⟨h, []⟩ [] rest
    | none => .error (.unknownNestedHelper name source)
  | .opening :: token :: _ => .error (.unknownNestedHelper token.text source)
  | .literal text :: rest =>
    alone source (.literal text) rest (.ok (.literal (Token.unquote text)))
  | .number text :: rest => alone source (.number text) rest (.ok (.number text))
  | .word text :: rest =>
    match Helper.ofName? text with
    | some h => readCalls scopes source text true ⟨h, []⟩ [] rest
    -- A word that is no helper is the whole expression, or a call of something unknown.
    | none => alone source (.word text) rest (ofWord scopes text)

/-- Reads an expression. -/
def read (scopes : List Nat) (source : String) : Except SyntaxError Expr := do
  ofTokens scopes source (← Token.tokenize source)

end Expr

/-! ## Printing -/

/-- The variable that holds the current item of a scope. -/
def itemVariable (level : Nat) : String := "_this" ++ toString level

def Base.print : Base → String
  | .context => "_ctx"
  | .item level => itemVariable level
  | .index level => itemVariable level ++ "_loop.index0"
  | .isFirst level => itemVariable level ++ "_loop.first"
  | .isLast level => itemVariable level ++ "_loop.last"

def Step.print : Step → String
  | .index n => "[" ++ toString n ++ "]"
  | .key name => "[" ++ Json.quotedString name ++ "]"

def Reference.print (r : Reference) : String :=
  r.base.print ++ String.join (r.steps.map Step.print)

mutual

/-- The printed form of an expression. -/
def Expr.print : Expr → String
  | .call h args => "hb_" ++ h.name ++ "(" ++ ", ".intercalate (Expr.printAll args) ++ ")"
  | .literal text => Json.quotedString text
  | .number text => text
  | .bool true => "true"
  | .bool false => "false"
  | .absent => "none"
  | .reference r => r.print

/-- The printed forms of the arguments of a call. -/
def Expr.printAll : List Expr → List String
  | [] => []
  | e :: es => e.print :: Expr.printAll es

end

end Formwork.Template
