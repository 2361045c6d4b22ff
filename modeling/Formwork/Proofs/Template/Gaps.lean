import Formwork.Proofs.Template.Derivation
import Formwork.Proofs.Template.Words

/-!
# Gaps between tokens

The tokens of a text do not tell how many blanks are between them, nor which (`HasTokens`). Behind
a text that is cut into tokens a gap ends the last of them, whatever its blanks are, and the tokens
of what follows come next (`HasTokens.append_iff`). An expression is read from its tokens alone, so
that it is the same with any blanks in its gaps (`read_respaced`).
-/

namespace Formwork.Proofs

open Formwork Formwork.Template Formwork.Text

/-- A gap: blanks, at least one. -/
structure Gap (run : List Char) : Prop where
  nonempty : run ≠ []
  blanks : Blanks run

theorem Gap.exists_cons {run : List Char} (h : Gap run) :
    ∃ b more, isBlank b = true ∧ Blanks more ∧ run = b :: more := by
  obtain ⟨b, more, rfl⟩ := List.exists_cons_of_ne_nil h.nonempty
  exact ⟨b, more, h.blanks b (List.mem_cons_self ..), h.blanks.tail, rfl⟩

/-! ## Trimming around a gap -/

section Trimming

variable {front run behind : List Char}

/-- A gap with nothing on one side of it is trimmed off. -/
theorem trim_respaced {run' : List Char} (h : Blanks front ∨ Blanks behind) (hrun : Gap run)
    (hrun' : Gap run') : trim (front ++ (run ++ behind)) = trim (front ++ (run' ++ behind)) := by
  rcases h with h | h
  · rw [trim_blanks_append h, trim_blanks_append h, trim_blanks_append hrun.blanks,
      trim_blanks_append hrun'.blanks]
  · rw [← List.append_assoc, ← List.append_assoc, trim_append_blanks h, trim_append_blanks h,
      trim_append_blanks hrun.blanks, trim_append_blanks hrun'.blanks]

end Trimming

/-! ## One token -/

section Tokens

variable {cs after : List Char} {token : Token}

theorem literalBody?_eq_append {quote : Char} {body : List Char}
    (h : Token.literalBody? quote cs = some (body, after)) : cs = body ++ after := by
  fun_induction Token.literalBody? quote cs generalizing body with
  | case1 => cases h
  | case2 => cases h
  | case3 c rest _ ih =>
      obtain ⟨⟨body, after⟩, hrest, heq⟩ := Option.map_eq_some_iff.mp h
      cases heq
      rw [ih hrest]
      rfl
  | case4 c rest =>
      cases h
      rfl
  | case5 => cases h
  | case6 c rest _ _ _ ih =>
      obtain ⟨⟨body, after⟩, hrest, heq⟩ := Option.map_eq_some_iff.mp h
      cases heq
      rw [ih hrest]
      rfl

/-- A literal that is closed is closed there, whatever follows. -/
theorem literalBody?_extend {quote : Char} {body : List Char} (hquote : quote ≠ '\\')
    (h : Token.literalBody? quote cs = some (body, after)) (more : List Char) :
    Token.literalBody? quote (cs ++ more) = some (body, after ++ more) := by
  fun_induction Token.literalBody? quote cs generalizing body with
  | case1 => cases h
  | case2 => cases h
  | case3 c rest hline ih =>
      obtain ⟨⟨body, after⟩, hrest, heq⟩ := Option.map_eq_some_iff.mp h
      cases heq
      rw [List.cons_append, List.cons_append, Token.literalBody?, if_neg hline, ih hrest]
      rfl
  | case4 c rest hesc hend =>
      cases h
      have hc : c ≠ '\\' := by rwa [beq_iff_eq.mp hend]
      rw [List.cons_append, Token.literalBody?.eq_3 _ _ _ fun _ _ heq _ => hc heq, if_pos hend]
  | case5 => cases h
  | case6 c rest hesc hend hslash ih =>
      obtain ⟨⟨body, after⟩, hrest, heq⟩ := Option.map_eq_some_iff.mp h
      cases heq
      have hc : c ≠ '\\' := by simpa using hslash
      rw [List.cons_append, Token.literalBody?.eq_3 _ _ _ fun _ _ heq _ => hc heq, if_neg hend,
        if_neg hslash, ih hrest]
      rfl

theorem not_quote_of_blank {c : Char} (h : isBlank c = true) : Token.isQuote c = false := by
  rw [Token.isQuote, Bool.or_eq_false_iff, beq_eq_false_iff_ne, beq_eq_false_iff_ne]
  constructor <;> (rintro rfl; exact absurd h (by decide))

theorem not_wordPart_of_blank {c : Char} (h : isBlank c = true) : Token.isWordPart c = false := by
  rw [Token.isWordPart, h]
  rfl

/-- What a token is: a parenthesis, a literal or a run. -/
theorem next?_cases {c : Char} (hblank : isBlank c = false)
    (h : Token.next? (c :: cs) = some (token, after)) :
    (c = '(' ∧ token = .opening ∧ cs = after) ∨ (c = ')' ∧ token = .closing ∧ cs = after) ∨
      (∃ body, Token.isQuote c = true ∧ Token.literalBody? c cs = some (body, after)
        ∧ token = .literal (String.ofList (c :: body))) ∨
      ∃ run, run ≠ [] ∧ (∀ x ∈ run, Token.isWordPart x = true)
        ∧ (∀ x, after.head? = some x → Token.isWordPart x = false) ∧ c :: cs = run ++ after
        ∧ token = runToken run after := by
  by_cases hopening : c = '('
  · subst hopening
    cases h
    exact .inl ⟨rfl, rfl, rfl⟩
  by_cases hclosing : c = ')'
  · subst hclosing
    cases h
    exact .inr (.inl ⟨rfl, rfl, rfl⟩)
  rw [Token.next?.eq_4 _ _ hopening hclosing] at h
  by_cases hquote : Token.isQuote c = true
  · rw [if_pos hquote] at h
    obtain ⟨⟨body, after⟩, hbody, heq⟩ := Option.map_eq_some_iff.mp h
    cases heq
    exact .inr (.inr (.inl ⟨body, hquote, hbody, rfl⟩))
  · rw [if_neg hquote, List.span_eq_takeWhile_dropWhile] at h
    cases h
    have hmarks : c ≠ '"' ∧ c ≠ '\'' := by simpa [Token.isQuote] using hquote
    have hpart : Token.isWordPart c = true :=
      isWordPart_eq_true_iff.mpr ⟨hblank, by simp [hopening, hclosing, hmarks]⟩
    refine .inr (.inr (.inr ⟨(c :: cs).takeWhile Token.isWordPart, ?_, ?_, ?_, ?_, rfl⟩))
    · rw [List.takeWhile_cons_of_pos hpart]
      exact List.cons_ne_nil _ _
    · exact fun x hx => List.mem_takeWhile_imp hx
    · intro x hx
      have hne : (c :: cs).dropWhile Token.isWordPart ≠ [] := by
        intro hnil
        rw [hnil] at hx
        cases hx
      have hhead := List.head_dropWhile_not Token.isWordPart hne
      rw [List.head?_eq_some_head hne] at hx
      rw [← Option.some.inj hx]
      simpa using hhead
    · exact (List.takeWhile_append_dropWhile ..).symm

/-- A token is at least one character long. -/
theorem length_of_next? {c : Char} (hblank : isBlank c = false)
    (h : Token.next? (c :: cs) = some (token, after)) : after.length < (c :: cs).length := by
  rcases next?_cases hblank h with ⟨-, -, rfl⟩ | ⟨-, -, rfl⟩ | ⟨body, -, hbody, -⟩ |
    ⟨run, hne, -, -, heq, -⟩
  · exact Nat.lt_succ_self _
  · exact Nat.lt_succ_self _
  · rw [literalBody?_eq_append hbody, List.length_cons, List.length_append]
    omega
  · have hlength := List.length_pos_iff.mpr hne
    rw [heq, List.length_append]
    omega

/-- A token in front of a gap ends there. -/
theorem next?_append_gap {c : Char} {run : List Char} (hblank : isBlank c = false) (hgap : Gap run)
    (h : Token.next? (c :: cs) = some (token, after)) (behind : List Char) :
    Token.next? (c :: (cs ++ (run ++ behind))) = some (token, after ++ (run ++ behind)) := by
  obtain ⟨b, more, hb, -, rfl⟩ := hgap.exists_cons
  rcases next?_cases hblank h with ⟨rfl, rfl, rfl⟩ | ⟨rfl, rfl, rfl⟩ | ⟨body, hquote, hbody, rfl⟩ |
    ⟨word, hne, hword, hend, heq, rfl⟩
  · rfl
  · rfl
  · exact next?_literal hquote (literalBody?_extend (quote_ne_backslash hquote) hbody _)
  · -- the run cannot go on, and a blank is no quote either
    have hend' : ∀ x, (after ++ (b :: more ++ behind)).head? = some x →
        Token.isWordPart x = false := by
      cases after with
      | nil =>
          rintro x ⟨⟩
          exact not_wordPart_of_blank hb
      | cons x after => exact hend
    have htoken : runToken word (after ++ (b :: more ++ behind)) = runToken word after := by
      cases after with
      | nil => simp [runToken, not_quote_of_blank hb]
      | cons x after => rfl
    rw [← List.cons_append, heq, List.append_assoc, next?_run hne hword hend', htoken]

end Tokens

/-! ## All tokens -/

/-- The tokens of a text, with blanks anywhere between them. -/
inductive HasTokens : List Char → List Token → Prop where
  | nil : HasTokens [] []
  | blank {c : Char} {cs : List Char} {tokens : List Token} :
      isBlank c = true → HasTokens cs tokens → HasTokens (c :: cs) tokens
  | token {c : Char} {cs after : List Char} {token : Token} {tokens : List Token} :
      isBlank c = false → Token.next? (c :: cs) = some (token, after) → HasTokens after tokens →
      HasTokens (c :: cs) (token :: tokens)

section Scanning

variable {cs front run run' behind : List Char} {tokens more : List Token}

theorem hasTokens_blank_iff {c : Char} (hblank : isBlank c = true) :
    HasTokens (c :: cs) tokens ↔ HasTokens cs tokens := by
  constructor
  · intro h
    cases h with
    | blank _ hrest => exact hrest
    | token hno => rw [hblank] at hno; cases hno
  · exact .blank hblank

theorem hasTokens_token_iff {c : Char} {after : List Char} {token : Token}
    (hblank : isBlank c = false) (hnext : Token.next? (c :: cs) = some (token, after)) :
    HasTokens (c :: cs) tokens ↔ ∃ more, HasTokens after more ∧ tokens = token :: more := by
  constructor
  · intro h
    cases h with
    | blank hyes => rw [hblank] at hyes; cases hyes
    | token _ hnext' hrest =>
        rw [hnext] at hnext'
        cases hnext'
        exact ⟨_, hrest, rfl⟩
  · rintro ⟨more, hrest, rfl⟩
    exact .token hblank hnext hrest

theorem hasTokens_blanks_append_iff (h : Blanks front) :
    HasTokens (front ++ cs) tokens ↔ HasTokens cs tokens := by
  induction front with
  | nil => rfl
  | cons c front ih =>
      rw [List.cons_append, hasTokens_blank_iff (h c (List.mem_cons_self ..)), ih h.tail]

/-- **Behind a gap the next tokens begin.** -/
theorem HasTokens.append_iff (h : HasTokens front tokens) (hrun : Gap run) :
    HasTokens (front ++ (run ++ behind)) more ↔
      ∃ rest, HasTokens behind rest ∧ more = tokens ++ rest := by
  induction h generalizing more with
  | nil => simp [hasTokens_blanks_append_iff hrun.blanks]
  | blank hblank _ ih => rw [List.cons_append, hasTokens_blank_iff hblank, ih]
  | @token c cs after token tokens hblank hnext _ ih =>
      rw [List.cons_append, hasTokens_token_iff hblank (next?_append_gap hblank hrun hnext behind)]
      constructor
      · rintro ⟨later, hlater, rfl⟩
        obtain ⟨rest, hrest, rfl⟩ := ih.mp hlater
        exact ⟨rest, hrest, rfl⟩
      · rintro ⟨rest, hrest, rfl⟩
        exact ⟨_, ih.mpr ⟨rest, hrest, rfl⟩, rfl⟩

theorem scan_stuck {source : String} {fuel : Nat} {c : Char} (hblank : isBlank c = false)
    (h : Token.next? (c :: cs) = none) :
    Token.scan source (fuel + 1) (c :: cs) = .error (.unexpectedCharacter c source) := by
  have hdrop : (c :: cs).dropWhile isBlank = c :: cs :=
    List.dropWhile_cons_of_neg (by rw [hblank]; decide)
  unfold Token.scan
  rw [hdrop]
  dsimp only
  rw [h]

/-- **Scanning finds the tokens of a text.** -/
theorem scan_eq_ok_iff {source : String} {fuel : Nat} (hfuel : cs.length ≤ fuel) :
    Token.scan source fuel cs = .ok tokens ↔ HasTokens cs tokens := by
  induction hn : cs.length using Nat.strong_induction_on generalizing cs fuel tokens with
  | _ n ih =>
      cases cs with
      | nil =>
          rw [scan_nil]
          constructor
          · rintro ⟨⟩
            exact .nil
          · rintro ⟨⟩
            rfl
      | cons c cs =>
          subst hn
          by_cases hblank : isBlank c = true
          · have hlength : cs.length < (c :: cs).length := Nat.lt_succ_self _
            rw [scan_blank hblank, hasTokens_blank_iff hblank]
            exact ih _ hlength (Nat.le_trans (Nat.le_of_lt hlength) hfuel) rfl
          · rw [Bool.not_eq_true] at hblank
            obtain ⟨fuel, rfl⟩ := Nat.exists_eq_add_one.mpr (Nat.lt_of_lt_of_le (by simp) hfuel)
            cases hnext : Token.next? (c :: cs) with
            | none =>
                rw [scan_stuck hblank hnext]
                constructor
                · rintro ⟨⟩
                · intro h
                  cases h with
                  | blank hyes => rw [hblank] at hyes; cases hyes
                  | token _ hnext' => rw [hnext] at hnext'; cases hnext'
            | some found =>
                obtain ⟨token, after⟩ := found
                have hlength := length_of_next? hblank hnext
                have hafter : after.length ≤ fuel := by omega
                rw [scan_token hblank hnext, hasTokens_token_iff hblank hnext, map_eq_ok]
                simp only [ih _ hlength hafter rfl, eq_comm]

theorem tokenize_eq_ok_iff {source : String} :
    Token.tokenize source = .ok tokens ↔ HasTokens (trim source.toList) tokens :=
  scan_eq_ok_iff (Nat.le_refl _)

/-- The blanks at the end of a text are no tokens either. -/
theorem hasTokens_of_tokenize (h : Token.tokenize (String.ofList cs) = .ok tokens) :
    HasTokens cs tokens := by
  rw [tokenize_eq_ok_iff, String.toList_ofList] at h
  obtain ⟨front, behind, hfront, hbehind, heq⟩ := trim_surrounded cs
  rw [heq, hasTokens_blanks_append_iff hfront]
  cases hnil : behind with
  | nil => rwa [List.append_nil]
  | cons c rest =>
      have hgap : Gap behind := ⟨by rw [hnil]; exact List.cons_ne_nil _ _, hbehind⟩
      have htokens : HasTokens (trim cs ++ (behind ++ [])) _ :=
        (h.append_iff hgap).mpr ⟨[], .nil, rfl⟩
      rwa [List.append_nil, List.append_nil, hnil] at htokens

theorem hasTokens_dropWhile_iff :
    HasTokens (cs.dropWhile isBlank) tokens ↔ HasTokens cs tokens := by
  rw [← hasTokens_blanks_append_iff (blanks_takeWhile cs), List.takeWhile_append_dropWhile]

/-- **The tokens do not tell which blanks are in a gap.** -/
theorem hasTokens_trim_respaced (hfront : HasTokens front tokens) (hrun : Gap run)
    (hrun' : Gap run') :
    HasTokens (trim (front ++ (run ++ behind))) more ↔
      HasTokens (trim (front ++ (run' ++ behind))) more := by
  by_cases hends : Blanks front ∨ Blanks behind
  · rw [trim_respaced hends hrun hrun']
  · rw [not_or] at hends
    rw [trim_around hends.1 hends.2, trim_around hends.1 hends.2]
    rw [← hasTokens_dropWhile_iff] at hfront
    rw [hfront.append_iff hrun, hfront.append_iff hrun']

end Scanning

/-! ## Expressions -/

section Expressions

variable {scopes : List Nat} {source : String} {e : Expr}

/-- **An expression is read from its tokens.** -/
theorem read_eq_ok_iff :
    Expr.read scopes source = .ok e ↔
      ∃ d : ExprTree scopes, HasTokens (trim source.toList) d.tokens ∧ d.expr = e := by
  rw [Expr.read, bind_eq_ok]
  constructor
  · rintro ⟨tokens, htokens, hread⟩
    obtain ⟨d, rfl, rfl⟩ := ofTokens_eq_ok_iff.mp hread
    exact ⟨d, tokenize_eq_ok_iff.mp htokens, rfl⟩
  · rintro ⟨d, htokens, rfl⟩
    exact ⟨_, tokenize_eq_ok_iff.mpr htokens, ofTokens_eq_ok_iff.mpr ⟨d, rfl, rfl⟩⟩

/-- **It does not matter which blanks are in its gaps.** -/
theorem read_respaced {front run run' behind : List Char} {tokens : List Token}
    (hfront : HasTokens front tokens) (hrun : Gap run) (hrun' : Gap run') :
    Expr.read scopes (String.ofList (trim (front ++ (run ++ behind)))) = .ok e ↔
      Expr.read scopes (String.ofList (trim (front ++ (run' ++ behind)))) = .ok e := by
  have htrim : ∀ cs, trim (String.ofList (trim cs)).toList = trim cs := fun cs => by
    rw [String.toList_ofList]
    exact trimBy_trimBy (fun _ h => h) cs
  simp only [read_eq_ok_iff, htrim, hasTokens_trim_respaced hfront hrun hrun']

end Expressions

end Formwork.Proofs
