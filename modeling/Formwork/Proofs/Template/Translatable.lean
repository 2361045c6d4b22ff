import Formwork.Proofs.Template.Spelling

/-!
# What can be read as an expression

Which texts are expressions does not depend on scopes, but for one thing: a path may not
have more parent steps than there are scopes to walk out of. So an expression is said by a
grammar over its tokens in which words are in reach of so many scopes (`Translatable`): a
helper with its arguments, or a single term, and in a term every call has parentheses.

The reader knows no arguments but the calls that are open. What it still has to find is the
rest of the arguments of each of them, with a closing parenthesis behind (`ClosesCalls`),
and every token that it takes can be put in front of the innermost of these again.

What is read refers to nothing but the scopes that it was read against.

Parentheses may be nested to any depth: how far the machine's stack carries a reader that calls
itself for each of them is left out here.
-/

namespace Formwork.Template

/-- The level of the scope that something starts from. -/
def Base.level? : Base → Option Nat
  | .context => none
  | .item level => some level
  | .index level => some level
  | .isFirst level => some level
  | .isLast level => some level

mutual

/-- The levels of the scopes that an expression refers to. -/
def Expr.levels : Expr → List Nat
  | .call _ args => Expr.levelsOf args
  | .reference r => r.base.level?.toList
  | _ => []

/-- The levels of the scopes that the arguments refer to. -/
def Expr.levelsOf : List Expr → List Nat
  | [] => []
  | e :: es => e.levels ++ Expr.levelsOf es

end

end Formwork.Template

namespace Formwork.Proofs

open Formwork Formwork.Template

/-! ## The grammar -/

/-- The word spells a constant, or a path with no more parent steps than the depth. -/
def InReach (depth : Nat) (word : String) : Prop :=
  ∃ t, Term.ofWord word = .ok t ∧ t.InScope depth

/-- The tokens spell terms, one after another. -/
inductive TermsWithin (depth : Nat) : List Token → Prop where
  | nil : TermsWithin depth []
  | literal {text : String} {rest : List Token} :
      TermsWithin depth rest → TermsWithin depth (.literal text :: rest)
  | number {text : String} {rest : List Token} :
      TermsWithin depth rest → TermsWithin depth (.number text :: rest)
  | word {text : String} {rest : List Token} :
      InReach depth text → TermsWithin depth rest → TermsWithin depth (.word text :: rest)
  | call {name : String} {helper : Helper} {args rest : List Token} :
      Helper.ofName? name = some helper → TermsWithin depth args → TermsWithin depth rest →
      TermsWithin depth (.opening :: .word name :: (args ++ .closing :: rest))

/-- The tokens spell an expression. -/
inductive ExpressionWithin (depth : Nat) : List Token → Prop where
  /-- The outermost call needs no parentheses. -/
  | bare {name : String} {helper : Helper} {args : List Token} :
      Helper.ofName? name = some helper → TermsWithin depth args →
      ExpressionWithin depth (.word name :: args)
  | call {name : String} {helper : Helper} {args : List Token} :
      Helper.ofName? name = some helper → TermsWithin depth args →
      ExpressionWithin depth (.opening :: .word name :: (args ++ [.closing]))
  | literal {text : String} : ExpressionWithin depth [.literal text]
  | number {text : String} : ExpressionWithin depth [.number text]
  | word {text : String} :
      Helper.ofName? text = none → InReach depth text → ExpressionWithin depth [.word text]

/-- The text is an expression whose paths have no more parent steps than the depth. -/
def Translatable (depth : Nat) (source : String) : Prop :=
  ∃ tokens, Token.tokenize source = .ok tokens ∧ ExpressionWithin depth tokens

/-! ## Words -/

section Words

variable {scopes : List Nat} {word : String}

/-- In scope, a path is resolved as it is spelled. -/
theorem ofPath_of_parentSteps {ups : Nat} {rest : List Char}
    (hplain : word.toList.contains '=' = false) (hups : parentSteps word.toList = (ups, rest))
    (hin : ups ≤ scopes.length) :
    Reference.ofPath scopes word = (Path.readRest (dropCurrent rest)).map fun found =>
      (Path.mk ups found.1 found.2).reference scopes := by
  unfold Reference.ofPath Path.readRest
  rw [hplain, if_neg Bool.false_ne_true, hups]
  dsimp only
  rw [scopeAbove?_of_le hin]
  dsimp only
  split
  · generalize (dropCurrent rest).span (· != '.') = parts
    cases List.mapM (fun s => Step.ofSegment (String.ofList s))
      (if parts.2.length ≤ 1 then [] else (parts.2.drop 1).splitOn '.') <;> rfl
  · cases ((dropCurrent rest).splitOn '.').filter (!·.isEmpty) with
    | nil => rfl
    | cons first more =>
        dsimp only
        cases List.mapM (fun s => Step.ofSegment (String.ofList s))
          (if first == "this".toList then more else first :: more) <;> rfl

/-- **A path is resolved if it can be spelled and has no more parent steps than there are scopes.** -/
theorem ofPath_eq_ok_iff {r : Reference} : Reference.ofPath scopes word = .ok r ↔
    ∃ p, Path.read word = .ok p ∧ p.ups ≤ scopes.length ∧ p.reference scopes = r := by
  constructor
  · intro h
    cases hplain : word.toList.contains '=' with
    | true =>
        rw [Reference.ofPath, hplain, if_pos rfl] at h
        cases h
    | false =>
        cases hups : parentSteps word.toList with
        | mk ups rest =>
            by_cases hin : ups ≤ scopes.length
            · rw [ofPath_of_parentSteps hplain hups hin] at h
              obtain ⟨found, hfound, rfl⟩ := map_eq_ok.mp h
              refine ⟨⟨ups, found.1, found.2⟩, ?_, hin, rfl⟩
              rw [Path.read, hplain, if_neg Bool.false_ne_true, hups]
              dsimp only
              rw [hfound]
              rfl
            · rw [Reference.ofPath, hplain, if_neg Bool.false_ne_true, hups] at h
              dsimp only at h
              rw [scopeAbove?_of_gt hin] at h
              cases h
  · rintro ⟨p, hp, hin, rfl⟩
    exact (ofPath_refuses scopes hp).1 hin

theorem ofWord_eq_ok_iff {e : Expr} : Expr.ofWord scopes word = .ok e ↔
    ∃ t, Term.ofWord word = .ok t ∧ t.InScope scopes.length ∧ t.expr scopes = e := by
  constructor
  · intro h
    unfold Expr.ofWord at h
    unfold Term.ofWord
    by_cases htrue : (word == "true") = true
    · rw [if_pos htrue] at h ⊢
      cases h
      exact ⟨.bool true, rfl, by simp [Term.InScope], rfl⟩
    by_cases hfalse : (word == "false") = true
    · rw [if_neg htrue, if_pos hfalse] at h ⊢
      cases h
      exact ⟨.bool false, rfl, by simp [Term.InScope], rfl⟩
    by_cases habsent : (word == "null" || word == "undefined") = true
    · rw [if_neg htrue, if_neg hfalse, if_pos habsent] at h ⊢
      cases h
      exact ⟨.absent, rfl, by simp [Term.InScope], rfl⟩
    · rw [if_neg htrue, if_neg hfalse, if_neg habsent] at h ⊢
      obtain ⟨r, hr, rfl⟩ := map_eq_ok.mp h
      obtain ⟨p, hp, hin, rfl⟩ := ofPath_eq_ok_iff.mp hr
      exact ⟨.path p, by rw [hp]; rfl, hin, rfl⟩
  · rintro ⟨t, ht, hin, rfl⟩
    exact (ofWord_refuses scopes ht).1 hin

theorem inReach_iff : InReach scopes.length word ↔ ∃ e, Expr.ofWord scopes word = .ok e := by
  constructor
  · rintro ⟨t, ht, hin⟩
    exact ⟨_, ofWord_eq_ok_iff.mpr ⟨t, ht, hin, rfl⟩⟩
  · rintro ⟨e, he⟩
    obtain ⟨t, ht, hin, -⟩ := ofWord_eq_ok_iff.mp he
    exact ⟨t, ht, hin⟩

theorem level_itemBase {scope : Option Nat} : (itemBase scope).level? = scope := by
  cases scope <;> rfl

theorem level_bindingBase {scope : Option Nat} {name : String} {level : Nat}
    (h : (bindingBase scope name).base.level? = some level) : scope = some level := by
  unfold bindingBase at h
  split at h <;> first | exact h | cases h

/-- A path starts from no scope but one of those that it was resolved against. -/
theorem level_of_reference {p : Path} {level : Nat}
    (h : (p.reference scopes).base.level? = some level) : level ∈ scopes := by
  refine List.mem_of_getElem? (i := p.ups) ?_
  unfold Path.reference at h
  split at h
  · exact level_itemBase.symm.trans h
  · exact level_bindingBase h

theorem levels_of_ofWord {e : Expr} (h : Expr.ofWord scopes word = .ok e) : e.levels ⊆ scopes := by
  unfold Expr.ofWord at h
  split at h
  · cases h
    simp [Expr.levels]
  split at h
  · cases h
    simp [Expr.levels]
  split at h
  · cases h
    simp [Expr.levels]
  · obtain ⟨r, hr, rfl⟩ := map_eq_ok.mp h
    obtain ⟨p, -, -, rfl⟩ := ofPath_eq_ok_iff.mp hr
    intro level hlevel
    rw [Expr.levels, Option.mem_toList] at hlevel
    exact level_of_reference hlevel

end Words

/-! ## Calls -/

/-- What is still to be found when so many calls are open around the innermost one: the rest of its
arguments, and behind a closing parenthesis the rest of theirs. -/
inductive ClosesCalls (depth : Nat) (bare : Bool) : Nat → List Token → Prop where
  | ending {args : List Token} :
      bare = true → TermsWithin depth args → ClosesCalls depth bare 0 args
  | last {args : List Token} :
      bare = false → TermsWithin depth args → ClosesCalls depth bare 0 (args ++ [.closing])
  | next {n : Nat} {args rest : List Token} :
      TermsWithin depth args → ClosesCalls depth bare n rest →
      ClosesCalls depth bare (n + 1) (args ++ .closing :: rest)

section Calls

variable {scopes : List Nat} {source first : String} {bare : Bool}

/-- What can be put in front of terms can be put in front of the rest of the arguments. -/
theorem ClosesCalls.front {depth n : Nat} (front : List Token) {rest : List Token}
    (hfront : ∀ args, TermsWithin depth args → TermsWithin depth (front ++ args))
    (h : ClosesCalls depth bare n rest) : ClosesCalls depth bare n (front ++ rest) := by
  cases h with
  | ending hbare hargs => exact .ending hbare (hfront _ hargs)
  | last hbare hargs =>
      rw [← List.append_assoc]
      exact .last hbare (hfront _ hargs)
  | next hargs hrest =>
      rw [← List.append_assoc]
      exact .next (hfront _ hargs) hrest

/-- **What is read inside calls closes them.** -/
theorem closesCalls_of_readCalls {c : Expr.OpenCall} {outer : List Expr.OpenCall}
    {tokens : List Token} {e : Expr}
    (h : Expr.readCalls scopes source first bare c outer tokens = .ok e) :
    ClosesCalls scopes.length bare outer.length tokens := by
  fun_induction Expr.readCalls scopes source first bare c outer tokens with
  | case1 c outer hend =>
      rw [Bool.and_eq_true, List.isEmpty_iff] at hend
      rw [hend.2]
      exact .ending hend.1 .nil
  | case2 => cases h
  | case3 c rest parent outer ih =>
      rw [← List.nil_append (Token.closing :: rest)]
      exact .next .nil (ih h)
  | case4 => cases h
  | case5 c rest hbare hrest =>
      rw [List.isEmpty_iff.mp hrest, ← List.nil_append [Token.closing]]
      exact .last (by simpa using hbare) .nil
  | case6 => cases h
  | case7 c outer name rest helper hname ih =>
      -- the arguments of the call, and what follows its closing parenthesis
      cases ih h with
      | @next _ args behind hargs hbehind =>
          have hcall : ∀ args', TermsWithin scopes.length args' → TermsWithin scopes.length
              ((.opening :: .word name :: (args ++ [.closing])) ++ args') := by
            intro args' hargs'
            simpa using TermsWithin.call hname hargs hargs'
          simpa using hbehind.front _ hcall
  | case8 => cases h
  | case9 => cases h
  | case10 => cases h
  | case11 c outer text rest ih => exact (ih h).front [.literal text] fun _ => .literal
  | case12 c outer text rest ih => exact (ih h).front [.number text] fun _ => .number
  | case13 c outer text rest e' hword ih =>
      have hreach := inReach_iff.mpr ⟨e', hword⟩
      exact (ih h).front [.word text] fun _ => .word hreach
  | case14 => cases h

/-- Terms are pushed on the innermost call. -/
theorem TermsWithin.readCalls {tokens : List Token} (h : TermsWithin scopes.length tokens)
    (c : Expr.OpenCall) (outer : List Expr.OpenCall) (rest : List Token) :
    ∃ args, Expr.readCalls scopes source first bare c outer (tokens ++ rest) =
      Expr.readCalls scopes source first bare ⟨c.helper, args⟩ outer rest := by
  induction h generalizing c outer rest with
  | nil => exact ⟨c.args, rfl⟩
  | literal _ ih => exact ih (c.push _) outer rest
  | number _ ih => exact ih (c.push _) outer rest
  | @word text more hword _ ih =>
      obtain ⟨e, he⟩ := inReach_iff.mp hword
      obtain ⟨args, hargs⟩ := ih (c.push e) outer rest
      refine ⟨args, ?_⟩
      rw [List.cons_append, Expr.readCalls, he]
      exact hargs
  | @call name helper args more hname _ _ ihargs ih =>
      obtain ⟨inner, hinner⟩ := ihargs ⟨helper, []⟩ (c :: outer) (.closing :: (more ++ rest))
      obtain ⟨args', hargs'⟩ := ih (c.push (Expr.OpenCall.close ⟨helper, inner⟩)) outer rest
      refine ⟨args', ?_⟩
      have hopen : Expr.readCalls scopes source first bare c outer
          (.opening :: .word name :: (args ++ .closing :: more) ++ rest) =
          Expr.readCalls scopes source first bare ⟨helper, []⟩ (c :: outer)
            (args ++ .closing :: (more ++ rest)) := by
        simp [Expr.readCalls, hname]
      rw [hopen, hinner, Expr.readCalls, hargs']
      rfl

theorem alone_eq_ok_iff {token : Token} {rest : List Token} {term : Except SyntaxError Expr}
    {e : Expr} : Expr.alone source token rest term = .ok e ↔ term = .ok e ∧ rest = [] := by
  unfold Expr.alone
  cases term with
  | error e' => simp
  | ok e' => cases rest <;> simp

/-- **The tokens of an expression are read, and no others.** -/
theorem ofTokens_ok_iff {tokens : List Token} :
    (∃ e, Expr.ofTokens scopes source tokens = .ok e) ↔ ExpressionWithin scopes.length tokens := by
  constructor
  · rintro ⟨e, h⟩
    unfold Expr.ofTokens at h
    split at h
    · cases h
    · cases h
    · cases h
    · rename_i name rest
      split at h
      · rename_i helper hname
        cases closesCalls_of_readCalls h with
        | ending hbare => cases hbare
        | last _ hargs => exact .call hname hargs
      · cases h
    · cases h
    · obtain ⟨-, rfl⟩ := alone_eq_ok_iff.mp h
      exact .literal
    · obtain ⟨-, rfl⟩ := alone_eq_ok_iff.mp h
      exact .number
    · rename_i text rest
      split at h
      · rename_i helper hname
        cases closesCalls_of_readCalls h with
        | ending _ hargs => exact .bare hname hargs
        | last hbare => cases hbare
      · rename_i hname
        obtain ⟨hword, rfl⟩ := alone_eq_ok_iff.mp h
        exact .word hname (inReach_iff.mpr ⟨e, hword⟩)
  · intro h
    cases h with
    | @bare name helper args hname hargs =>
        obtain ⟨inner, hread⟩ : ∃ inner, Expr.readCalls scopes source name true ⟨helper, []⟩ []
            (args ++ []) = Expr.readCalls scopes source name true ⟨helper, inner⟩ [] [] :=
          hargs.readCalls ⟨helper, []⟩ [] []
        rw [List.append_nil] at hread
        refine ⟨Expr.OpenCall.close ⟨helper, inner⟩, ?_⟩
        simp only [Expr.ofTokens, hname]
        rw [hread, Expr.readCalls]
        rfl
    | @call name helper args hname hargs =>
        obtain ⟨inner, hread⟩ : ∃ inner, Expr.readCalls scopes source "(" false ⟨helper, []⟩ []
            (args ++ [.closing]) =
            Expr.readCalls scopes source "(" false ⟨helper, inner⟩ [] [.closing] :=
          hargs.readCalls ⟨helper, []⟩ [] [.closing]
        refine ⟨Expr.OpenCall.close ⟨helper, inner⟩, ?_⟩
        simp only [Expr.ofTokens, hname]
        rw [hread, Expr.readCalls]
        rfl
    | literal => exact ⟨_, rfl⟩
    | number => exact ⟨_, rfl⟩
    | @word text hname hword =>
        obtain ⟨e, he⟩ := inReach_iff.mp hword
        refine ⟨e, ?_⟩
        simp only [Expr.ofTokens, hname]
        exact alone_eq_ok_iff.mpr ⟨he, rfl⟩

/-! ## What is read -/

theorem levelsOf_subset_iff {es : List Expr} :
    Expr.levelsOf es ⊆ scopes ↔ ∀ e ∈ es, e.levels ⊆ scopes := by
  induction es with
  | nil => simp [Expr.levelsOf]
  | cons e es ih => rw [Expr.levelsOf, List.append_subset, ih, List.forall_mem_cons]

/-- A call refers to what its arguments refer to. -/
theorem levels_close {c : Expr.OpenCall} (h : ∀ a ∈ c.args, a.levels ⊆ scopes) :
    c.close.levels ⊆ scopes := by
  rw [Expr.OpenCall.close, Expr.levels, levelsOf_subset_iff]
  exact fun a ha => h a (List.mem_reverse.mp ha)

theorem levels_of_readCalls {c : Expr.OpenCall} {outer : List Expr.OpenCall} {tokens : List Token}
    {e : Expr} (h : Expr.readCalls scopes source first bare c outer tokens = .ok e)
    (hall : ∀ o ∈ c :: outer, ∀ a ∈ o.args, a.levels ⊆ scopes) : e.levels ⊆ scopes := by
  -- an argument that is pushed refers to nothing else either
  have hpush : ∀ {c : Expr.OpenCall} {outer : List Expr.OpenCall} {a : Expr},
      (∀ o ∈ c :: outer, ∀ a ∈ o.args, a.levels ⊆ scopes) → a.levels ⊆ scopes →
      ∀ o ∈ c.push a :: outer, ∀ a ∈ o.args, a.levels ⊆ scopes := by
    intro c outer a hall ha
    obtain ⟨hc, houter⟩ := List.forall_mem_cons.mp hall
    exact List.forall_mem_cons.mpr ⟨List.forall_mem_cons.mpr ⟨ha, hc⟩, houter⟩
  fun_induction Expr.readCalls scopes source first bare c outer tokens with
  | case1 c outer hend =>
      cases h
      exact levels_close (hall c (List.mem_cons_self ..))
  | case2 => cases h
  | case3 c rest parent outer ih =>
      obtain ⟨hc, hall⟩ := List.forall_mem_cons.mp hall
      exact ih h (hpush hall (levels_close hc))
  | case4 => cases h
  | case5 c rest hbare hrest =>
      cases h
      exact levels_close (hall c (List.mem_cons_self ..))
  | case6 => cases h
  | case7 c outer name rest helper hname ih =>
      exact ih h (List.forall_mem_cons.mpr ⟨List.forall_mem_nil _, hall⟩)
  | case8 => cases h
  | case9 => cases h
  | case10 => cases h
  | case11 c outer text rest ih => exact ih h (hpush hall (by simp [Expr.levels]))
  | case12 c outer text rest ih => exact ih h (hpush hall (by simp [Expr.levels]))
  | case13 c outer text rest e' hword ih => exact ih h (hpush hall (levels_of_ofWord hword))
  | case14 => cases h

theorem levels_of_ofTokens {tokens : List Token} {e : Expr}
    (h : Expr.ofTokens scopes source tokens = .ok e) : e.levels ⊆ scopes := by
  have hnone : ∀ helper : Helper, ∀ o ∈ [(⟨helper, []⟩ : Expr.OpenCall)], ∀ a ∈ o.args,
      a.levels ⊆ scopes := by
    simp
  unfold Expr.ofTokens at h
  split at h
  · cases h
  · cases h
  · cases h
  · split at h
    · exact levels_of_readCalls h (hnone _)
    · cases h
  · cases h
  · obtain ⟨heq, -⟩ := alone_eq_ok_iff.mp h
    cases heq
    simp [Expr.levels]
  · obtain ⟨heq, -⟩ := alone_eq_ok_iff.mp h
    cases heq
    simp [Expr.levels]
  · split at h
    · exact levels_of_readCalls h (hnone _)
    · exact levels_of_ofWord (alone_eq_ok_iff.mp h).1

end Calls

section Reading

variable {scopes : List Nat} {source : String}

/-- **An expression is read exactly if it is translatable with the scopes that are open.** -/
theorem read_ok_iff :
    (∃ e, Expr.read scopes source = .ok e) ↔ Translatable scopes.length source := by
  constructor
  · rintro ⟨e, h⟩
    obtain ⟨tokens, htokens, hread⟩ := bind_eq_ok.mp h
    exact ⟨tokens, htokens, ofTokens_ok_iff.mp ⟨e, hread⟩⟩
  · rintro ⟨tokens, htokens, hwithin⟩
    obtain ⟨e, he⟩ := ofTokens_ok_iff.mpr hwithin
    exact ⟨e, bind_eq_ok.mpr ⟨tokens, htokens, he⟩⟩

/-- What is read refers to nothing but the open scopes. -/
theorem levels_of_read {e : Expr} (h : Expr.read scopes source = .ok e) : e.levels ⊆ scopes := by
  obtain ⟨tokens, -, hread⟩ := bind_eq_ok.mp h
  exact levels_of_ofTokens hread

end Reading

end Formwork.Proofs
