import Formwork.Proofs.Answer
import Formwork.Proofs.Template.Interpreter
import Formwork.Template.Expression

/-!
# How terms are spelled

Expressions are read against the scopes that are open, and give references to scopes by
their levels. What they spell does not depend on scopes (`Heads`): a word is a constant or
a path with its parent steps, a call is its helper's name and its arguments, with or
without parentheses around them at the outside.

Reading a term gives its form at the open scopes (`Term.expr`), unless one of its paths
drops more scopes than are open; then it is refused. This holds of each reader below, and
is said in one way for all of them (`Refuses`).
-/

namespace Formwork.Proofs

open Formwork Formwork.Template

/-! ## Refusing what is out of scope -/

/-- The outcome is the expected one if all paths are in scope, and the refusal of a path if not. -/
def Refuses {α : Type} (inScope : Prop) (outcome expected : Except SyntaxError α) : Prop :=
  (inScope → outcome = expected) ∧
    (¬ inScope → ∃ path, outcome = .error (.aboveRoot path))

namespace Refuses

variable {α β : Type} {P Q : Prop} {a b c : Except SyntaxError α}

theorem refl (a : Except SyntaxError α) : Refuses True a a :=
  ⟨fun _ => rfl, fun h => absurd trivial h⟩

theorem of_eq (h : a = b) : Refuses True a b := h ▸ .refl a

/-- What is expected of the first part is the second part. -/
theorem trans (hab : Refuses P a b) (hbc : Refuses Q b c) : Refuses (P ∧ Q) a c := by
  constructor
  · rintro ⟨hP, hQ⟩
    rw [hab.1 hP, hbc.1 hQ]
  · intro hnot
    by_cases hP : P
    · rw [hab.1 hP]
      exact hbc.2 fun hQ => hnot ⟨hP, hQ⟩
    · exact hab.2 hP

theorem trans_eq (hab : Refuses P a b) (hbc : b = c) : Refuses P a c := hbc ▸ hab

theorem eq_trans (hab : a = b) (hbc : Refuses P b c) : Refuses P a c := hab ▸ hbc

/-- A refusal goes through whatever is done with the outcome. -/
theorem bind (h : Refuses P a b) (f : α → Except SyntaxError β) :
    Refuses P (a >>= f) (b >>= f) := by
  refine ⟨fun hP => by rw [h.1 hP], fun hP => ?_⟩
  obtain ⟨path, rfl⟩ := h.2 hP
  exact ⟨path, rfl⟩

theorem map (h : Refuses P a b) (f : α → β) : Refuses P (a.map f) (b.map f) := by
  refine ⟨fun hP => by rw [h.1 hP], fun hP => ?_⟩
  obtain ⟨path, rfl⟩ := h.2 hP
  exact ⟨path, rfl⟩

end Refuses

/-! ## Words -/

/-- What the rest of a path spells, behind its parent steps. -/
def Path.readRest (rest : List Char) : Except SyntaxError (PathStart × List Step) :=
  if rest.head? == some '@' then do
    let (name, tail) := rest.span (· != '.')
    let segments := if tail.length ≤ 1 then [] else (tail.drop 1).splitOn '.'
    let steps ← segments.mapM fun s => Step.ofSegment (String.ofList s)
    .ok (.binding (String.ofList name), steps)
  else
    match (rest.splitOn '.').filter (!·.isEmpty) with
    | [] => .error (.emptyPath (String.ofList rest))
    | first :: more => do
      let segments := if first == "this".toList then more else first :: more
      let steps ← segments.mapM fun s => Step.ofSegment (String.ofList s)
      .ok (.item, steps)

/-- The path that a word spells. -/
def Path.read (word : String) : Except SyntaxError Path :=
  if word.toList.contains '=' then .error (.hashArgument word)
  else do
    let (ups, rest) := parentSteps word.toList
    let (start, steps) ← Path.readRest (dropCurrent rest)
    .ok ⟨ups, start, steps⟩

/-- The term that a word spells where no helper is expected. -/
def Term.ofWord (word : String) : Except SyntaxError Term :=
  if word == "true" then .ok (.bool true)
  else if word == "false" then .ok (.bool false)
  else if word == "null" || word == "undefined" then .ok .absent
  else (Path.read word).map .path

/-- What a path refers to at the open scopes, innermost first. -/
def Path.reference (scopes : List Nat) (p : Path) : Reference :=
  match p.start with
  | .item => ⟨itemBase scopes[p.ups]?, p.steps⟩
  | .binding name =>
    ⟨(bindingBase scopes[p.ups]? name).base, (bindingBase scopes[p.ups]? name).steps ++ p.steps⟩

theorem scopeAbove?_of_le {scopes : List Nat} {ups : Nat} (h : ups ≤ scopes.length) :
    scopeAbove? scopes ups = some scopes[ups]? :=
  if_neg (Nat.not_lt.mpr h)

theorem scopeAbove?_of_gt {scopes : List Nat} {ups : Nat} (h : ¬ ups ≤ scopes.length) :
    scopeAbove? scopes ups = none :=
  if_pos (Nat.not_le.mp h)

/-- Reading a path gives its reference. -/
theorem ofPath_refuses (scopes : List Nat) {word : String} {p : Path}
    (h : Path.read word = .ok p) :
    Refuses (p.ups ≤ scopes.length) (Reference.ofPath scopes word) (.ok (p.reference scopes)) := by
  unfold Path.read at h
  unfold Reference.ofPath
  generalize parentSteps word.toList = parts at h ⊢
  obtain ⟨ups, rest⟩ := parts
  split at h
  · cases h
  rename_i hplain
  rw [if_neg hplain]
  dsimp only at h ⊢
  obtain ⟨⟨start, steps⟩, hrest, heq⟩ := bind_eq_ok.mp h
  cases heq
  refine ⟨fun hin => ?_, fun hout => ?_⟩
  · rw [scopeAbove?_of_le hin]
    dsimp only
    -- both readers split what is behind the parent steps alike
    unfold Path.readRest at hrest
    split at hrest
    · rename_i hat
      generalize (dropCurrent rest).span (· != '.') = parts at hrest ⊢
      obtain ⟨found, hsteps, heq⟩ := bind_eq_ok.mp hrest
      cases heq
      rw [if_pos hat, hsteps]
      rfl
    · rename_i hat
      rw [if_neg hat]
      cases hparts : ((dropCurrent rest).splitOn '.').filter (!·.isEmpty) with
      | nil =>
          rw [hparts] at hrest
          cases hrest
      | cons first more =>
          rw [hparts] at hrest
          obtain ⟨found, hsteps, heq⟩ := bind_eq_ok.mp hrest
          cases heq
          dsimp only
          rw [hsteps]
          rfl
  · rw [scopeAbove?_of_gt hout]
    exact ⟨_, rfl⟩

/-! ## Terms -/

mutual

/-- The form of a term at the open scopes. -/
def Term.expr (scopes : List Nat) : Term → Expr
  | .call helper args => .call helper (Term.exprs scopes args)
  | .literal text => .literal text
  | .number text _ _ => .number text
  | .bool b => .bool b
  | .absent => .absent
  | .path p => .reference (p.reference scopes)

/-- The forms of terms at the open scopes. -/
def Term.exprs (scopes : List Nat) : List Term → List Expr
  | [] => []
  | t :: ts => t.expr scopes :: Term.exprs scopes ts

end

theorem ofWord_refuses (scopes : List Nat) {word : String} {t : Term}
    (h : Term.ofWord word = .ok t) :
    Refuses (t.InScope scopes.length) (Expr.ofWord scopes word) (.ok (t.expr scopes)) := by
  unfold Term.ofWord at h
  unfold Expr.ofWord
  split at h
  · rename_i htrue
    cases h
    rw [if_pos htrue]
    exact .refl _
  rename_i htrue
  rw [if_neg htrue]
  split at h
  · rename_i hfalse
    cases h
    rw [if_pos hfalse]
    exact .refl _
  rename_i hfalse
  rw [if_neg hfalse]
  split at h
  · rename_i habsent
    cases h
    rw [if_pos habsent]
    exact .refl _
  rename_i habsent
  rw [if_neg habsent]
  obtain ⟨p, hp, rfl⟩ := map_eq_ok.mp h
  exact (ofPath_refuses scopes hp).map Expr.reference

mutual

/-- The tokens spell the term inside a call, where every call has parentheses. -/
inductive Spells : Term → List Token → Prop where
  | literal {text : String} : Spells (.literal (Token.unquote text)) [.literal text]
  | number {text : String} {value : Value} {h : numberLiteral text = .ok value} :
      Spells (.number text value h) [.number text]
  | word {text : String} {t : Term} : Term.ofWord text = .ok t → Spells t [.word text]
  | call {name : String} {helper : Helper} {args : List Term} {tokens : List Token} :
      Helper.ofName? name = some helper → SpellsAll args tokens →
      Spells (.call helper args) (.opening :: .word name :: tokens ++ [.closing])

/-- The tokens spell the terms one after another. -/
inductive SpellsAll : List Term → List Token → Prop where
  | nil : SpellsAll [] []
  | cons {t : Term} {ts : List Term} {tokens more : List Token} :
      Spells t tokens → SpellsAll ts more → SpellsAll (t :: ts) (tokens ++ more)

end

/-- The tokens spell the term as a whole expression. -/
inductive Heads : Term → List Token → Prop where
  /-- The outermost call needs no parentheses. -/
  | bare {name : String} {helper : Helper} {args : List Term} {tokens : List Token} :
      Helper.ofName? name = some helper → SpellsAll args tokens →
      Heads (.call helper args) (.word name :: tokens)
  /-- Any other term is spelled as inside a call, but its word must not name a helper. -/
  | term {t : Term} {tokens : List Token} :
      Spells t tokens → (∀ name, tokens = [.word name] → Helper.ofName? name = none) →
      Heads t tokens

/-- The text is an expression for the term. -/
def Term.Reads (t : Term) (source : String) : Prop :=
  ∃ tokens, Token.tokenize source = .ok tokens ∧ Heads t tokens

section Reading

variable {scopes : List Nat} {source first : String} {bare : Bool}

mutual

/-- The tokens of a term push it on the innermost call. -/
theorem Spells.readCalls {t : Term} {tokens : List Token} (h : Spells t tokens)
    (c : Expr.OpenCall) (outer : List Expr.OpenCall) (rest : List Token) :
    Refuses (t.InScope scopes.length)
      (Expr.readCalls scopes source first bare c outer (tokens ++ rest))
      (Expr.readCalls scopes source first bare (c.push (t.expr scopes)) outer rest) := by
  cases h with
  | literal => exact .refl _
  | number => exact .refl _
  | word ht =>
      refine .eq_trans ?_ ((ofWord_refuses scopes ht).bind fun e =>
        Expr.readCalls scopes source first bare (c.push e) outer rest)
      rw [List.singleton_append, Expr.readCalls]
      cases Expr.ofWord scopes _ <;> rfl
  | @call name helper args tokens hname hargs =>
      have hinner := hargs.readCalls ⟨helper, []⟩ (c :: outer) (.closing :: rest)
      rw [List.append_nil] at hinner
      have hopen : Expr.readCalls scopes source first bare c outer
          (.opening :: .word name :: tokens ++ [.closing] ++ rest) =
          Expr.readCalls scopes source first bare ⟨helper, []⟩ (c :: outer)
            (tokens ++ .closing :: rest) := by
        simp [Expr.readCalls, hname]
      refine .eq_trans hopen (hinner.trans_eq ?_)
      rw [Expr.readCalls, Expr.OpenCall.close, List.reverse_reverse]
      rfl

/-- The tokens of terms push them on the innermost call, one after another. -/
theorem SpellsAll.readCalls {ts : List Term} {tokens : List Token} (h : SpellsAll ts tokens)
    (c : Expr.OpenCall) (outer : List Expr.OpenCall) (rest : List Token) :
    Refuses (Term.AllInScope scopes.length ts)
      (Expr.readCalls scopes source first bare c outer (tokens ++ rest))
      (Expr.readCalls scopes source first bare
        ⟨c.helper, (Term.exprs scopes ts).reverse ++ c.args⟩ outer rest) := by
  cases h with
  | nil => exact .refl _
  | @cons t ts tokens more ht hts =>
      have hhead := ht.readCalls c outer (more ++ rest)
      have htail := hts.readCalls (c.push (t.expr scopes)) outer rest
      rw [List.append_assoc]
      refine (hhead.trans htail).trans_eq ?_
      rw [Term.exprs, List.reverse_cons, List.append_assoc]
      rfl

end

/-- **The tokens of an expression are read as its term.** -/
theorem Heads.ofTokens {t : Term} {tokens : List Token} (h : Heads t tokens) :
    Refuses (t.InScope scopes.length) (Expr.ofTokens scopes source tokens)
      (.ok (t.expr scopes)) := by
  cases h with
  | @bare name helper args tokens hname hargs =>
      have hcalls : Refuses _ (Expr.readCalls scopes source name true ⟨helper, []⟩ []
          (tokens ++ [])) _ := hargs.readCalls ⟨helper, []⟩ [] []
      rw [List.append_nil, List.append_nil] at hcalls
      refine .eq_trans (by simp [Expr.ofTokens, hname]) (hcalls.trans_eq ?_)
      rw [Expr.readCalls, Expr.OpenCall.close, List.reverse_reverse]
      rfl
  | term ht hword =>
      cases ht with
      | literal => exact .refl _
      | number => exact .refl _
      | @word text _ ht =>
          have halone : Expr.ofTokens scopes source [.word text] = Expr.ofWord scopes text := by
            simp only [Expr.ofTokens, hword text rfl, Expr.alone]
            cases Expr.ofWord scopes text <;> rfl
          exact .eq_trans halone (ofWord_refuses scopes ht)
      | @call name helper args tokens hname hargs =>
          have hcalls : Refuses _ (Expr.readCalls scopes source "(" false ⟨helper, []⟩ []
              (tokens ++ [.closing])) _ := hargs.readCalls ⟨helper, []⟩ [] [.closing]
          rw [List.append_nil] at hcalls
          refine .eq_trans (by simp [Expr.ofTokens, hname]) (hcalls.trans_eq ?_)
          rw [Expr.readCalls, Expr.OpenCall.close, List.reverse_reverse]
          rfl

/-- Reading an expression gives the form of its term. -/
theorem Term.Reads.read {t : Term} (h : t.Reads source) :
    Refuses (t.InScope scopes.length) (Expr.read scopes source) (.ok (t.expr scopes)) := by
  obtain ⟨tokens, htokens, hheads⟩ := h
  have hread : Expr.read scopes source = Expr.ofTokens scopes source tokens := by
    rw [Expr.read, htokens]
    rfl
  exact .eq_trans hread hheads.ofTokens

/-- An expression is never empty. -/
theorem Term.Reads.ne_nil {t : Term} {cs : List Char} (h : t.Reads (String.ofList cs)) :
    cs ≠ [] := by
  rintro rfl
  obtain ⟨tokens, htokens, hheads⟩ := h
  have hnone : Token.tokenize (String.ofList []) = .ok [] := by rfl
  rw [hnone] at htokens
  cases htokens
  cases hheads with
  | term ht _ => cases ht

end Reading

end Formwork.Proofs
