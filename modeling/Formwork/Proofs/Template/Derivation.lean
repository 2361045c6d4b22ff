import Formwork.Proofs.Template.Translatable

/-!
# Derivations of expressions

An expression is derived in the grammar

    mustache ::= helper term* | term
    term     ::= '(' helper term* ')' | literal | number | word

where a helper is a word that names one, a word in the place of a term can be resolved in the open
scopes, and a term that is a whole mustache is no word that names a helper. A derivation is a tree
(`TermTree`, `ExprTree`): its leaves from left to right are the tokens that it derives, and its
calls, one inside the other, are what is printed.

No tokens have two derivations (`ExprTree.tokens_injective`), as a term is found again in front of
whatever follows it. The reader takes the tokens of a derivation and builds the expression that it
stands for, so it succeeds exactly on what can be derived (`ofTokens_eq_ok_iff`), as far as the
stack of its machine reaches, which is taken to have no end.
-/

namespace Formwork.Proofs

open Formwork Formwork.Template

/-! ## Derivations -/

/-- A derivation of a term. -/
inductive TermTree (scopes : List Nat) where
  /-- A call in parentheses. -/
  | call (name : String) (helper : Helper) (h : Helper.ofName? name = some helper)
      (args : List (TermTree scopes))
  | literal (text : String)
  | number (text : String)
  /-- A constant, or a path that can be resolved here. It may well be the name of a helper. -/
  | word (text : String) (e : Expr) (h : Expr.ofWord scopes text = .ok e)

section Terms

variable {scopes : List Nat}

mutual

/-- The tokens that are derived. -/
def TermTree.tokens : TermTree scopes → List Token
  | .call name _ _ args => .opening :: .word name :: (TermTree.tokensAll args ++ [.closing])
  | .literal text => [.literal text]
  | .number text => [.number text]
  | .word text _ _ => [.word text]

def TermTree.tokensAll : List (TermTree scopes) → List Token
  | [] => []
  | t :: ts => t.tokens ++ TermTree.tokensAll ts

end

mutual

/-- The expression that is derived. -/
def TermTree.expr : TermTree scopes → Expr
  | .call _ helper _ args => .call helper (TermTree.exprs args)
  | .literal text => .literal (Token.unquote text)
  | .number text => .number text
  | .word _ e _ => e

def TermTree.exprs : List (TermTree scopes) → List Expr
  | [] => []
  | t :: ts => t.expr :: TermTree.exprs ts

end

/-- A call as it is printed. -/
def printedCall (name : String) (args : List String) : String :=
  "hb_" ++ name ++ "(" ++ ", ".intercalate args ++ ")"

mutual

/-- What is printed: calls with their arguments in the order in which they are derived. -/
def TermTree.print : TermTree scopes → String
  | .call name _ _ args => printedCall name (TermTree.printAll args)
  | .literal text => Json.quotedString (Token.unquote text)
  | .number text => text
  | .word _ e _ => e.print

def TermTree.printAll : List (TermTree scopes) → List String
  | [] => []
  | t :: ts => t.print :: TermTree.printAll ts

end

end Terms

/-- A derivation of a mustache. -/
inductive ExprTree (scopes : List Nat) where
  /-- A call without parentheses. -/
  | bare (name : String) (helper : Helper) (h : Helper.ofName? name = some helper)
      (args : List (TermTree scopes))
  | term (t : TermTree scopes)
      (h : ∀ name, t.tokens.head? = some (.word name) → Helper.ofName? name = none)

section Expressions

variable {scopes : List Nat}

/-- The tokens that are derived. -/
def ExprTree.tokens : ExprTree scopes → List Token
  | .bare name _ _ args => .word name :: TermTree.tokensAll args
  | .term t _ => t.tokens

/-- The expression that is derived. -/
def ExprTree.expr : ExprTree scopes → Expr
  | .bare _ helper _ args => .call helper (TermTree.exprs args)
  | .term t _ => t.expr

/-- What is printed. -/
def ExprTree.print : ExprTree scopes → String
  | .bare name _ _ args => printedCall name (TermTree.printAll args)
  | .term t _ => t.print

end Expressions

/-! ## Parentheses -/

/-- How many parentheses are open behind the tokens, when there are so many before them. A closing
one needs one to close. -/
def openBehind : Nat → List Token → Option Nat
  | depth, [] => some depth
  | depth, .opening :: rest => openBehind (depth + 1) rest
  | 0, .closing :: _ => none
  | depth + 1, .closing :: rest => openBehind depth rest
  | depth, _ :: rest => openBehind depth rest

/-- Every parenthesis is closed by one of its own. -/
def ParensMatch (tokens : List Token) : Prop := openBehind 0 tokens = some 0

section Parentheses

variable {scopes : List Nat} (depth : Nat) (text : String) (rest : List Token)

theorem openBehind_closing :
    openBehind (depth + 1) (.closing :: rest) = openBehind depth rest := rfl

theorem openBehind_literal : openBehind depth (.literal text :: rest) = openBehind depth rest := by
  cases depth <;> rfl

theorem openBehind_number : openBehind depth (.number text :: rest) = openBehind depth rest := by
  cases depth <;> rfl

theorem openBehind_word : openBehind depth (.word text :: rest) = openBehind depth rest := by
  cases depth <;> rfl

theorem openBehind_call :
    openBehind depth (.opening :: .word text :: rest) = openBehind (depth + 1) rest := by
  rw [openBehind, openBehind_word]

mutual

/-- As many parentheses are open behind a term as before it. -/
theorem TermTree.openBehind_tokens : ∀ (t : TermTree scopes) (depth : Nat) (rest : List Token),
    openBehind depth (t.tokens ++ rest) = openBehind depth rest
  | .call name _ _ args, depth, rest => by
      have hargs := TermTree.openBehind_tokensAll args (depth + 1) (.closing :: rest)
      rw [TermTree.tokens, List.cons_append, List.cons_append, List.append_assoc, openBehind_call,
        List.singleton_append, hargs, openBehind_closing]
  | .literal text, depth, rest => openBehind_literal depth text rest
  | .number text, depth, rest => openBehind_number depth text rest
  | .word text _ _, depth, rest => openBehind_word depth text rest

theorem TermTree.openBehind_tokensAll : ∀ (ts : List (TermTree scopes)) (depth : Nat)
    (rest : List Token), openBehind depth (TermTree.tokensAll ts ++ rest) = openBehind depth rest
  | [], _, _ => rfl
  | t :: ts, depth, rest => by
      rw [TermTree.tokensAll, List.append_assoc, TermTree.openBehind_tokens t,
        TermTree.openBehind_tokensAll ts]

end

theorem ExprTree.parensMatch (d : ExprTree scopes) : ParensMatch d.tokens := by
  have hterms : ∀ tokens : List Token, (∀ rest, openBehind 0 (tokens ++ rest) = openBehind 0 rest) →
      openBehind 0 tokens = some 0 := by
    intro tokens h
    rw [← List.append_nil tokens, h, openBehind]
  cases d with
  | bare name helper h args =>
      rw [ParensMatch, ExprTree.tokens, openBehind_word]
      exact hterms _ (TermTree.openBehind_tokensAll args 0)
  | term t h => exact hterms _ (t.openBehind_tokens 0)

end Parentheses

/-! ## One derivation at most -/

section Uniqueness

variable {scopes : List Nat}

mutual

/-- A term is found again in front of whatever follows it. -/
theorem TermTree.tokens_inj : ∀ (t t' : TermTree scopes) {rest rest' : List Token},
    t.tokens ++ rest = t'.tokens ++ rest' → t = t' ∧ rest = rest'
  | .call name helper h args, .call name' helper' h' args', rest, rest', heq => by
      simp only [TermTree.tokens, List.cons_append, List.append_assoc, List.cons.injEq,
        Token.word.injEq, true_and, List.nil_append] at heq
      obtain ⟨rfl, hargs⟩ := heq
      obtain ⟨rfl, hrest⟩ := TermTree.tokensAll_inj args args' hargs
      obtain rfl : helper = helper' := Option.some.inj (h.symm.trans h')
      exact ⟨rfl, hrest⟩
  | .literal text, .literal text', rest, rest', heq => by
      simpa [TermTree.tokens] using heq
  | .number text, .number text', rest, rest', heq => by
      simpa [TermTree.tokens] using heq
  | .word text e h, .word text' e' h', rest, rest', heq => by
      simp only [TermTree.tokens, List.singleton_append, List.cons.injEq, Token.word.injEq] at heq
      obtain ⟨rfl, hrest⟩ := heq
      obtain rfl : e = e' := Except.ok.inj (h.symm.trans h')
      exact ⟨rfl, hrest⟩
  | .call .., .literal _, _, _, heq | .call .., .number _, _, _, heq | .call .., .word .., _, _, heq
  | .literal _, .call .., _, _, heq | .literal _, .number _, _, _, heq
  | .literal _, .word .., _, _, heq
  | .number _, .call .., _, _, heq | .number _, .literal _, _, _, heq
  | .number _, .word .., _, _, heq
  | .word .., .call .., _, _, heq | .word .., .literal _, _, _, heq
  | .word .., .number _, _, _, heq => by
      simp [TermTree.tokens] at heq

/-- The terms in parentheses end at the first closing one that none of them opened. -/
theorem TermTree.tokensAll_inj : ∀ (ts ts' : List (TermTree scopes)) {rest rest' : List Token},
    TermTree.tokensAll ts ++ .closing :: rest = TermTree.tokensAll ts' ++ .closing :: rest' →
      ts = ts' ∧ rest = rest'
  | [], [], rest, rest', heq => ⟨rfl, (List.cons.inj heq).2⟩
  | t :: ts, t' :: ts', rest, rest', heq => by
      rw [TermTree.tokensAll, TermTree.tokensAll, List.append_assoc, List.append_assoc] at heq
      obtain ⟨rfl, hts⟩ := TermTree.tokens_inj t t' heq
      obtain ⟨rfl, hrest⟩ := TermTree.tokensAll_inj ts ts' hts
      exact ⟨rfl, hrest⟩
  | [], t :: ts, rest, rest', heq | t :: ts, [], rest, rest', heq => by
      -- no term begins with a closing parenthesis
      cases t <;> simp [TermTree.tokensAll, TermTree.tokens] at heq

end

/-- **No tokens have two derivations.** -/
theorem ExprTree.tokens_injective : Function.Injective (@ExprTree.tokens scopes) := by
  have hterm : ∀ (name : String) (helper : Helper) (h : Helper.ofName? name = some helper)
      (args : List (TermTree scopes)) (t : TermTree scopes)
      (ht : ∀ name, t.tokens.head? = some (.word name) → Helper.ofName? name = none),
      (ExprTree.bare name helper h args).tokens ≠ (ExprTree.term t ht).tokens := by
    intro name helper h args t ht heq
    have hnone : Helper.ofName? name = none := by
      refine ht name ?_
      show (ExprTree.term t ht).tokens.head? = _
      rw [← heq]
      rfl
    rw [hnone] at h
    cases h
  intro d d' heq
  cases d with
  | bare name helper h args =>
      cases d' with
      | bare name' helper' h' args' =>
          obtain ⟨hname, hargs⟩ := List.cons.inj heq
          cases hname
          obtain rfl : helper = helper' := Option.some.inj (h.symm.trans h')
          have hclosed := congrArg (· ++ [Token.closing]) hargs
          obtain ⟨rfl, -⟩ := TermTree.tokensAll_inj args args' hclosed
          rfl
      | term t ht => exact absurd heq (hterm name helper h args t ht)
  | term t ht =>
      cases d' with
      | bare name helper h args => exact absurd heq.symm (hterm name helper h args t ht)
      | term t' ht' =>
          have hsame : t.tokens ++ [] = t'.tokens ++ [] := congrArg (· ++ []) heq
          obtain ⟨rfl, -⟩ := TermTree.tokens_inj t t' hsame
          rfl

end Uniqueness

/-! ## Reading -/

section Reading

variable {scopes : List Nat} {source first : String} {bare : Bool}

mutual

/-- The tokens of a term push its expression on the innermost call. -/
theorem TermTree.readCalls : ∀ (t : TermTree scopes) (c : Expr.OpenCall)
    (outer : List Expr.OpenCall) (rest : List Token),
    Expr.readCalls scopes source first bare c outer (t.tokens ++ rest) =
      Expr.readCalls scopes source first bare (c.push t.expr) outer rest
  | .call name helper h args, c, outer, rest => by
      have hargs := TermTree.readCalls_tokensAll args ⟨helper, []⟩ (c :: outer) (.closing :: rest)
      have hopen : Expr.readCalls scopes source first bare c outer
          ((TermTree.call name helper h args).tokens ++ rest) =
          Expr.readCalls scopes source first bare ⟨helper, []⟩ (c :: outer)
            (TermTree.tokensAll args ++ .closing :: rest) := by
        simp [TermTree.tokens, Expr.readCalls, h]
      rw [hopen, hargs, Expr.readCalls, Expr.OpenCall.close, List.append_nil, List.reverse_reverse]
      rfl
  | .literal text, c, outer, rest => rfl
  | .number text, c, outer, rest => rfl
  | .word text e h, c, outer, rest => by
      rw [TermTree.tokens, List.singleton_append, Expr.readCalls, h]
      rfl

theorem TermTree.readCalls_tokensAll : ∀ (ts : List (TermTree scopes)) (c : Expr.OpenCall)
    (outer : List Expr.OpenCall) (rest : List Token),
    Expr.readCalls scopes source first bare c outer (TermTree.tokensAll ts ++ rest) =
      Expr.readCalls scopes source first bare ⟨c.helper, (TermTree.exprs ts).reverse ++ c.args⟩
        outer rest
  | [], c, outer, rest => rfl
  | t :: ts, c, outer, rest => by
      rw [TermTree.tokensAll, List.append_assoc, TermTree.readCalls t,
        TermTree.readCalls_tokensAll ts, TermTree.exprs, List.reverse_cons, List.append_assoc]
      rfl

end

/-- **The tokens of a derivation are read as the expression that it derives.** -/
theorem ExprTree.ofTokens (d : ExprTree scopes) :
    Expr.ofTokens scopes source d.tokens = .ok d.expr := by
  cases d with
  | bare name helper h args =>
      have hargs : Expr.readCalls scopes source name true ⟨helper, []⟩ []
          (TermTree.tokensAll args ++ []) = _ :=
        TermTree.readCalls_tokensAll args ⟨helper, []⟩ [] []
      rw [List.append_nil, List.append_nil, Expr.readCalls] at hargs
      simp only [ExprTree.tokens, Expr.ofTokens, h]
      rw [hargs, Expr.OpenCall.close, List.reverse_reverse]
      rfl
  | term t ht =>
      cases t with
      | call name helper h args =>
          have hargs : Expr.readCalls scopes source "(" false ⟨helper, []⟩ []
              (TermTree.tokensAll args ++ [.closing]) = _ :=
            TermTree.readCalls_tokensAll args ⟨helper, []⟩ [] [.closing]
          rw [List.append_nil, Expr.readCalls] at hargs
          simp only [ExprTree.tokens, TermTree.tokens, Expr.ofTokens, h]
          rw [hargs, Expr.OpenCall.close, List.reverse_reverse]
          rfl
      | literal text => rfl
      | number text => rfl
      | word text e h =>
          simp only [ExprTree.tokens, TermTree.tokens, Expr.ofTokens, ht text rfl]
          exact alone_eq_ok_iff.mpr ⟨h, rfl⟩

/-- Terms in reach have derivations. -/
theorem TermsWithin.derived {tokens : List Token} (h : TermsWithin scopes.length tokens) :
    ∃ ts : List (TermTree scopes), TermTree.tokensAll ts = tokens := by
  induction h with
  | nil => exact ⟨[], rfl⟩
  | literal _ ih =>
      obtain ⟨ts, rfl⟩ := ih
      exact ⟨.literal _ :: ts, rfl⟩
  | number _ ih =>
      obtain ⟨ts, rfl⟩ := ih
      exact ⟨.number _ :: ts, rfl⟩
  | word hword _ ih =>
      obtain ⟨ts, rfl⟩ := ih
      obtain ⟨e, he⟩ := inReach_iff.mp hword
      exact ⟨.word _ e he :: ts, rfl⟩
  | call hname _ _ ihargs ih =>
      obtain ⟨args, rfl⟩ := ihargs
      obtain ⟨ts, rfl⟩ := ih
      exact ⟨.call _ _ hname args :: ts, by simp [TermTree.tokensAll, TermTree.tokens]⟩

theorem ExpressionWithin.derived {tokens : List Token}
    (h : ExpressionWithin scopes.length tokens) : ∃ d : ExprTree scopes, d.tokens = tokens := by
  cases h with
  | bare hname hargs =>
      obtain ⟨args, rfl⟩ := hargs.derived
      exact ⟨.bare _ _ hname args, rfl⟩
  | call hname hargs =>
      obtain ⟨args, rfl⟩ := hargs.derived
      exact ⟨.term (.call _ _ hname args) nofun, rfl⟩
  | literal => exact ⟨.term (.literal _) nofun, rfl⟩
  | number => exact ⟨.term (.number _) nofun, rfl⟩
  | @word text hname hword =>
      obtain ⟨e, he⟩ := inReach_iff.mp hword
      refine ⟨.term (.word text e he) ?_, rfl⟩
      rintro name ⟨⟩
      exact hname

/-- **What can be derived is read, and nothing else.** -/
theorem ofTokens_eq_ok_iff {tokens : List Token} {e : Expr} :
    Expr.ofTokens scopes source tokens = .ok e ↔
      ∃ d : ExprTree scopes, d.tokens = tokens ∧ d.expr = e := by
  constructor
  · intro h
    obtain ⟨d, rfl⟩ := (ofTokens_ok_iff.mp ⟨e, h⟩).derived
    rw [d.ofTokens] at h
    exact ⟨d, rfl, Except.ok.inj h⟩
  · rintro ⟨d, rfl, rfl⟩
    exact d.ofTokens

end Reading

/-! ## Printing -/

section Printing

variable {scopes : List Nat}

theorem Helper.name_of_ofName? {name : String} {helper : Helper}
    (h : Helper.ofName? name = some helper) : helper.name = name :=
  eq_of_beq (List.find?_some (p := fun h : Helper => h.name == name) h)

mutual

theorem TermTree.print_expr : ∀ t : TermTree scopes, t.expr.print = t.print
  | .call name helper h args => by
      rw [TermTree.expr, Expr.print, TermTree.printAll_exprs args, Helper.name_of_ofName? h]
      rfl
  | .literal text => rfl
  | .number text => rfl
  | .word text e h => rfl

theorem TermTree.printAll_exprs : ∀ ts : List (TermTree scopes),
    Expr.printAll (TermTree.exprs ts) = TermTree.printAll ts
  | [] => rfl
  | t :: ts => by
      rw [TermTree.exprs, Expr.printAll, TermTree.print_expr t, TermTree.printAll_exprs ts]
      rfl

end

/-- **The expression that is derived is printed as its derivation.** -/
theorem ExprTree.print_expr (d : ExprTree scopes) : d.expr.print = d.print := by
  cases d with
  | bare name helper h args =>
      rw [ExprTree.expr, Expr.print, TermTree.printAll_exprs args, Helper.name_of_ofName? h]
      rfl
  | term t h => exact t.print_expr

/-- The name of a helper, in the place of a term, is the path of that name. -/
theorem ofWord_name (helper : Helper) :
    Expr.ofWord scopes helper.name =
      .ok (.reference ⟨itemBase scopes.head?, [.key helper.name]⟩) := by
  cases scopes <;> cases helper <;> rfl

end Printing

section Arguments

variable {scopes : List Nat}

theorem TermTree.tokensAll_append (ts ts' : List (TermTree scopes)) :
    TermTree.tokensAll (ts ++ ts') = TermTree.tokensAll ts ++ TermTree.tokensAll ts' := by
  induction ts with
  | nil => rfl
  | cons t ts ih =>
      rw [List.cons_append, TermTree.tokensAll, ih, TermTree.tokensAll, List.append_assoc]

theorem TermTree.exprs_append (ts ts' : List (TermTree scopes)) :
    TermTree.exprs (ts ++ ts') = TermTree.exprs ts ++ TermTree.exprs ts' := by
  induction ts with
  | nil => rfl
  | cons t ts ih => rw [List.cons_append, TermTree.exprs, ih, TermTree.exprs, List.cons_append]

/-- **Among arguments, the bare name of a helper is a path.** -/
theorem ofTokens_bare_name (source : String) (helper other : Helper)
    (before after : List (TermTree scopes)) :
    Expr.ofTokens scopes source (.word helper.name ::
        (TermTree.tokensAll before ++ .word other.name :: TermTree.tokensAll after)) =
      .ok (.call helper (TermTree.exprs before ++
        .reference ⟨itemBase scopes.head?, [.key other.name]⟩ :: TermTree.exprs after)) := by
  have hread : Expr.ofTokens scopes source _ = _ :=
    (ExprTree.bare helper.name helper (Helper.ofName?_name helper)
      (before ++ .word other.name _ (ofWord_name other) :: after)).ofTokens
  rw [ExprTree.tokens, ExprTree.expr, TermTree.tokensAll_append, TermTree.exprs_append] at hread
  exact hread

end Arguments

/--
**Expressions are read by their grammar.**

Tokens are read exactly if they can be derived, all of them, and then in one way only. What is read
is what is derived, and is printed as the calls of the derivation. The bare name of a helper among
arguments is a path, and where a parenthesis has no other nothing is read.
-/
theorem expressions_derived (scopes : List Nat) (source : String) :
    (∀ tokens : List Token, (∃ e, Expr.ofTokens scopes source tokens = .ok e) ↔
        ∃ d : ExprTree scopes, d.tokens = tokens)
      ∧ Function.Injective (@ExprTree.tokens scopes)
      ∧ (∀ d : ExprTree scopes,
        Expr.ofTokens scopes source d.tokens = .ok d.expr ∧ d.expr.print = d.print)
      ∧ (∀ (helper other : Helper) (before after : List (TermTree scopes)),
        Expr.ofTokens scopes source (.word helper.name ::
            (TermTree.tokensAll before ++ .word other.name :: TermTree.tokensAll after)) =
          .ok (.call helper (TermTree.exprs before ++
            .reference ⟨itemBase scopes.head?, [.key other.name]⟩ :: TermTree.exprs after)))
      ∧ ∀ tokens : List Token, ¬ ParensMatch tokens →
        ∃ error, Expr.ofTokens scopes source tokens = .error error := by
  refine ⟨fun tokens => ?_, ExprTree.tokens_injective, fun d => ⟨d.ofTokens, d.print_expr⟩,
    ofTokens_bare_name source, fun tokens hlone => ?_⟩
  · constructor
    · rintro ⟨e, h⟩
      obtain ⟨d, htokens, -⟩ := ofTokens_eq_ok_iff.mp h
      exact ⟨d, htokens⟩
    · rintro ⟨d, rfl⟩
      exact ⟨d.expr, d.ofTokens⟩
  · cases h : Expr.ofTokens scopes source tokens with
    | error error => exact ⟨error, rfl⟩
    | ok e =>
        obtain ⟨d, rfl, -⟩ := ofTokens_eq_ok_iff.mp h
        exact absurd d.parensMatch hlone

/-- The derivation of `and (eq country "US") not`, where `not` is a path. -/
def nestedTree : ExprTree [] :=
  .bare "and" .and rfl
    [.call "eq" .eq rfl [.word "country" (.reference ⟨.context, [.key "country"]⟩) rfl,
      .literal "\"US\""], .word "not" _ (ofWord_name .not)]

theorem expressions_derived_nested :
    (∃ e, Expr.ofTokens [] "" [.word "and", .opening, .word "eq", .word "country",
        .literal "\"US\"", .closing, .word "not"] = .ok e
      ∧ e.print = "hb_and(hb_eq(_ctx[\"country\"], \"US\"), _ctx[\"not\"])")
      ∧ ∃ error, Expr.ofTokens [] "" [.word "and", .opening, .word "eq", .word "country",
        .literal "\"US\"", .word "not"] = .error error := by
  obtain ⟨-, -, hread, -, hlone⟩ := expressions_derived [] ""
  obtain ⟨hnested, hprinted⟩ := hread nestedTree
  refine ⟨⟨_, hnested, hprinted.trans (by decide)⟩, hlone _ ?_⟩
  rw [ParensMatch]
  decide

end Formwork.Proofs
