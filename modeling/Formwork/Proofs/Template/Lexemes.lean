import Formwork.Proofs.Number.Numeric
import Formwork.Proofs.Template.Gaps

/-!
# What a token is written as

A token has its kind from its text and from what follows it (`Lexeme`): literals are complete, from
a quote to the same quote, runs hold no blank, quote or parenthesis and go as far as they can, and a
run is a number exactly when it has the form of one and a blank, a parenthesis or the end comes
next. A text is cut into tokens from its front, with blanks between them (`Lexes`). There is one
place at most where that cannot go on, namely before a quote that begins no complete literal, so
that an expression either has tokens that spell all of it or is refused at such a quote
(`tokenize_lexes`).
-/

namespace Formwork.Proofs

open Formwork Formwork.Template Formwork.Text

/-! ## The texts of the kinds -/

/-- What can stand between quotes: characters other than the quote, and behind a backslash any
character but a line feed. -/
inductive LiteralBody (quote : Char) : List Char → Prop where
  | nil : LiteralBody quote []
  | char {c : Char} {cs : List Char} :
      c ≠ quote → c ≠ '\\' → LiteralBody quote cs → LiteralBody quote (c :: cs)
  | escaped {c : Char} {cs : List Char} :
      c ≠ '\n' → LiteralBody quote cs → LiteralBody quote ('\\' :: c :: cs)

/-- A complete literal: a body between two quotes of one kind. -/
def IsLiteral (text : List Char) : Prop :=
  ∃ quote body, (quote = '"' ∨ quote = '\'') ∧ LiteralBody quote body ∧
    text = quote :: (body ++ [quote])

/-- A whole number, possibly with a fraction. -/
def IsUnsigned (cs : List Char) : Prop :=
  ∃ whole tail, Digits whole ∧ (tail = [] ∨ ∃ fraction, Digits fraction ∧ tail = '.' :: fraction) ∧
    cs = whole ++ tail

/-- The text of a number: a minus sign if any, digits, and a fraction if any. -/
def IsNumberText (cs : List Char) : Prop :=
  ∃ sign rest, (sign = [] ∨ sign = ['-']) ∧ IsUnsigned rest ∧ cs = sign ++ rest

/-- Where a number can end: before a blank, before a parenthesis and at the end. -/
def NumberEnds (after : List Char) : Prop :=
  ∀ c, after.head? = some c → isBlank c = true ∨ c = '(' ∨ c = ')'

/-- A run: characters that are no blanks, quotes or parentheses, at least one. -/
structure WordRun (cs : List Char) : Prop where
  nonempty : cs ≠ []
  parts : ∀ c ∈ cs, isBlank c = false ∧ c ∉ ['(', ')', '"', '\'']

/-- The texts of the tokens of each kind. -/
inductive Spelled : Token → Prop where
  | opening : Spelled .opening
  | closing : Spelled .closing
  | literal {text : String} : IsLiteral text.toList → Spelled (.literal text)
  | number {text : String} : WordRun text.toList → Spelled (.number text)
  | word {text : String} : WordRun text.toList → Spelled (.word text)

/-- A token where this follows it. -/
structure Lexeme (token : Token) (after : List Char) : Prop where
  spelled : Spelled token
  number_iff : (∃ text, token = .number text) ↔
    IsNumberText token.text.toList ∧ NumberEnds after
  longest : ∀ text, token = .word text →
    ∀ c, after.head? = some c → isBlank c = true ∨ c ∈ ['(', ')', '"', '\'']

/-- The tokens at the front of a text, with blanks anywhere before them, and the rest. -/
inductive Lexes : List Char → List Token → List Char → Prop where
  | start {cs : List Char} : Lexes cs [] cs
  | blank {c : Char} {cs rest : List Char} {tokens : List Token} :
      isBlank c = true → Lexes cs tokens rest → Lexes (c :: cs) tokens rest
  | token {token : Token} {after rest : List Char} {tokens : List Token} :
      Lexeme token after → Lexes after tokens rest →
      Lexes (token.text.toList ++ after) (token :: tokens) rest

/-- Nothing is lost: the text is that of the tokens, with blanks before each and at the end. -/
def Interleaved (cs : List Char) (tokens : List Token) : Prop :=
  ∃ gaps last, gaps.length = tokens.length ∧ (∀ gap ∈ gaps, Blanks gap) ∧ Blanks last ∧
    cs = (List.zipWith (fun gap token => gap ++ token.text.toList) gaps tokens).flatten ++ last

/-- A quote that begins no complete literal. -/
structure Unclosed (quote : Char) (rest : List Char) : Prop where
  isQuote : quote = '"' ∨ quote = '\''
  noLiteral : ∀ text after, IsLiteral text → quote :: rest ≠ text ++ after

/-! ## Literals -/

section Literals

variable {cs after body : List Char} {quote : Char}

theorem literalBody_of_literalBody? (h : Token.literalBody? quote cs = some (body, after)) :
    ∃ inner, LiteralBody quote inner ∧ body = inner ++ [quote] := by
  fun_induction Token.literalBody? quote cs generalizing body with
  | case1 => cases h
  | case2 => cases h
  | case3 c rest hline ih =>
      obtain ⟨⟨body, after⟩, hrest, heq⟩ := Option.map_eq_some_iff.mp h
      cases heq
      obtain ⟨inner, hinner, rfl⟩ := ih hrest
      exact ⟨'\\' :: c :: inner, .escaped (by simpa using hline) hinner, rfl⟩
  | case4 c rest _ hend =>
      cases h
      exact ⟨[], .nil, by rw [beq_iff_eq.mp hend]; rfl⟩
  | case5 => cases h
  | case6 c rest _ hend hslash ih =>
      obtain ⟨⟨body, after⟩, hrest, heq⟩ := Option.map_eq_some_iff.mp h
      cases heq
      obtain ⟨inner, hinner, rfl⟩ := ih hrest
      exact ⟨c :: inner, .char (by simpa using hend) (by simpa using hslash) hinner, rfl⟩

theorem LiteralBody.literalBody? (h : LiteralBody quote cs) (hquote : quote ≠ '\\')
    (after : List Char) :
    Token.literalBody? quote (cs ++ quote :: after) = some (cs ++ [quote], after) := by
  induction h with
  | nil =>
      rw [List.nil_append, Token.literalBody?.eq_3 _ _ _ fun _ _ heq _ => hquote heq,
        if_pos (beq_self_eq_true _)]
      rfl
  | @char c cs hend hslash _ ih =>
      rw [List.cons_append, Token.literalBody?.eq_3 _ _ _ fun _ _ heq _ => hslash heq,
        if_neg (by simpa using hend), if_neg (by simpa using hslash), ih]
      rfl
  | @escaped c cs hline _ ih =>
      rw [List.cons_append, List.cons_append, Token.literalBody?, if_neg (by simpa using hline), ih]
      rfl

theorem isQuote_eq_true_iff {c : Char} : Token.isQuote c = true ↔ c = '"' ∨ c = '\'' := by
  simp [Token.isQuote]

/-- Where the scanner finds no end of a literal, none begins. -/
theorem unclosed_of_literalBody? (hquote : Token.isQuote quote = true)
    (h : Token.literalBody? quote cs = none) : Unclosed quote cs := by
  refine ⟨isQuote_eq_true_iff.mp hquote, ?_⟩
  intro text after hliteral heq
  obtain ⟨quote', body, -, hbody, rfl⟩ := hliteral
  rw [List.cons_append, List.append_assoc, List.singleton_append] at heq
  obtain ⟨rfl, rfl⟩ := List.cons.inj heq
  rw [hbody.literalBody? (quote_ne_backslash hquote)] at h
  cases h

end Literals

/-! ## Numbers -/

section Numbers

variable {cs : List Char}

theorem isUnsignedNumber_eq_true_iff : Token.isUnsignedNumber cs = true ↔ IsUnsigned cs := by
  have hpoint : isDecimal '.' = false := by decide
  constructor
  · intro h
    rw [Token.isUnsignedNumber, List.span_eq_takeWhile_dropWhile] at h
    have hsplit : cs = cs.takeWhile isDecimal ++ cs.dropWhile isDecimal :=
      (List.takeWhile_append_dropWhile ..).symm
    have hdigits : ∀ c ∈ cs.takeWhile isDecimal, isDecimal c = true :=
      fun c hc => List.mem_takeWhile_imp hc
    generalize cs.takeWhile isDecimal = whole at h hsplit hdigits
    generalize cs.dropWhile isDecimal = tail at h hsplit
    split at h
    · cases h
    · rename_i hne heq
      cases heq
      exact ⟨whole, [], ⟨hne, hdigits⟩, .inl rfl, hsplit⟩
    · rename_i fraction hne heq
      cases heq
      rw [Bool.and_eq_true, Bool.not_eq_true', List.isEmpty_eq_false_iff, List.all_eq_true] at h
      exact ⟨whole, '.' :: fraction, ⟨hne, hdigits⟩,
        .inr ⟨fraction, ⟨h.1, h.2⟩, rfl⟩, hsplit⟩
    · cases h
  · intro h
    obtain ⟨whole, tail, hwhole, htail, rfl⟩ := h
    have hend : ∀ c, tail.head? = some c → isDecimal c = false := by
      intro c hc
      rcases htail with rfl | ⟨fraction, -, rfl⟩
      · cases hc
      · cases hc
        exact hpoint
    obtain ⟨d, ds, rfl⟩ := List.exists_cons_of_ne_nil hwhole.nonempty
    rw [Token.isUnsignedNumber, span_append hwhole.decimal hend]
    rcases htail with rfl | ⟨fraction, hfraction, rfl⟩
    · rfl
    · show (!fraction.isEmpty && fraction.all isDecimal) = true
      rw [Bool.and_eq_true, Bool.not_eq_true', List.isEmpty_eq_false_iff, List.all_eq_true]
      exact ⟨hfraction.nonempty, hfraction.decimal⟩

/-- No number without its sign begins with the sign. -/
theorem not_isUnsigned_minus : ¬ IsUnsigned ('-' :: cs) := by
  intro h
  obtain ⟨whole, tail, hwhole, -, heq⟩ := h
  obtain ⟨d, ds, rfl⟩ := List.exists_cons_of_ne_nil hwhole.nonempty
  cases heq
  exact absurd (hwhole.decimal '-' (List.mem_cons_self ..)) (by decide)

theorem isNumber_eq_true_iff : Token.isNumber cs = true ↔ IsNumberText cs := by
  have hsigned : IsNumberText cs ↔ IsUnsigned cs ∨ ∃ rest, IsUnsigned rest ∧ cs = '-' :: rest := by
    constructor
    · intro h
      obtain ⟨sign, rest, hsign, hrest, rfl⟩ := h
      rcases hsign with rfl | rfl
      · exact .inl hrest
      · exact .inr ⟨rest, hrest, rfl⟩
    · intro h
      rcases h with h | ⟨rest, hrest, rfl⟩
      · exact ⟨[], cs, .inl rfl, h, rfl⟩
      · exact ⟨['-'], rest, .inr rfl, hrest, rfl⟩
  rw [hsigned]
  unfold Token.isNumber
  split
  · rename_i rest
    rw [isUnsignedNumber_eq_true_iff]
    simp [not_isUnsigned_minus]
  · rename_i hminus
    rw [isUnsignedNumber_eq_true_iff]
    refine ⟨.inl, fun h => ?_⟩
    rcases h with h | ⟨rest, -, rfl⟩
    · exact h
    · exact absurd rfl (hminus rest)

theorem WordRun.isWordPart (h : WordRun cs) : ∀ c ∈ cs, Token.isWordPart c = true :=
  fun c hc => isWordPart_eq_true_iff.mpr (h.parts c hc)

theorem wordRun_of_isWordPart (hne : cs ≠ []) (h : ∀ c ∈ cs, Token.isWordPart c = true) :
    WordRun cs :=
  ⟨hne, fun c hc => isWordPart_eq_true_iff.mp (h c hc)⟩

theorem not_isWordPart_iff {c : Char} :
    Token.isWordPart c = false ↔ isBlank c = true ∨ c ∈ ['(', ')', '"', '\''] := by
  rw [← Bool.not_eq_true, isWordPart_eq_true_iff, not_and_or, Bool.not_eq_false, not_not]

/-- A number can end where a run does, unless a quote comes next. -/
theorem numberEnds_iff {after : List Char}
    (hend : ∀ c, after.head? = some c → Token.isWordPart c = false) :
    NumberEnds after ↔ after.head?.any Token.isQuote = false := by
  cases after with
  | nil => simp [NumberEnds]
  | cons c after =>
      have hc := not_isWordPart_iff.mp (hend c rfl)
      have hblank : isBlank c = true → Token.isQuote c = false := not_quote_of_blank
      rw [← Bool.not_eq_true]
      simp only [NumberEnds, List.head?_cons, Option.some.injEq, forall_eq', Option.any_some,
        isQuote_eq_true_iff]
      simp only [List.mem_cons, List.not_mem_nil, or_false] at hc
      constructor
      · intro h hquote
        rcases h with h | rfl | rfl
        · rw [isQuote_eq_true_iff.mpr hquote] at hblank
          exact absurd (hblank h) (by decide)
        · exact absurd hquote (by decide)
        · exact absurd hquote (by decide)
      · intro h
        rcases hc with hc | hc | hc | hc
        · exact .inl hc
        · exact .inr (.inl hc)
        · exact .inr (.inr hc)
        · exact absurd hc h

end Numbers

/-! ## One token -/

section Tokens

variable {cs after : List Char} {token : Token}

theorem Spelled.exists_cons (h : Spelled token) :
    ∃ c more, isBlank c = false ∧ token.text.toList = c :: more := by
  cases h with
  | opening => exact ⟨'(', [], by decide, rfl⟩
  | closing => exact ⟨')', [], by decide, rfl⟩
  | literal h =>
      obtain ⟨quote, body, hquote, -, heq⟩ := h
      refine ⟨quote, body ++ [quote], ?_, heq⟩
      rcases hquote with rfl | rfl <;> decide
  | number h | word h =>
      obtain ⟨c, more, heq⟩ := List.exists_cons_of_ne_nil h.nonempty
      exact ⟨c, more, (h.parts c (heq ▸ List.mem_cons_self ..)).1, heq⟩

/-- What begins with neither a digit nor the sign is no number. -/
theorem not_isNumberText_cons {c : Char} (hdigit : isDecimal c = false) (hminus : c ≠ '-')
    (cs : List Char) : ¬ IsNumberText (c :: cs) := by
  rw [← isNumber_eq_true_iff, isNumber_of_head hdigit hminus]
  exact Bool.false_ne_true

/-- A run is a number or a word, by its form and by what follows. -/
theorem lexeme_runToken {run : List Char} (hrun : WordRun run)
    (hend : ∀ c, after.head? = some c → Token.isWordPart c = false) :
    Lexeme (runToken run after) after := by
  have hlongest := fun c hc => not_isWordPart_iff.mp (hend c hc)
  have hnumber : (Token.isNumber run && !after.head?.any Token.isQuote) = true ↔
      IsNumberText run ∧ NumberEnds after := by
    rw [Bool.and_eq_true, Bool.not_eq_true', isNumber_eq_true_iff, numberEnds_iff hend]
  rw [runToken]
  by_cases hyes : (Token.isNumber run && !after.head?.any Token.isQuote) = true
  · rw [if_pos hyes]
    refine ⟨.number (by rwa [String.toList_ofList]), ?_, fun _ h => absurd h (by simp)⟩
    rw [Token.text, String.toList_ofList, ← hnumber]
    exact iff_of_true ⟨_, rfl⟩ hyes
  · rw [if_neg hyes]
    refine ⟨.word (by rwa [String.toList_ofList]), ?_, fun _ _ => hlongest⟩
    rw [Token.text, String.toList_ofList, ← hnumber]
    exact iff_of_false (by simp) hyes

/-- **The scanner takes a token of the text, with its kind.** -/
theorem lexeme_of_next? {c : Char} (hblank : isBlank c = false)
    (h : Token.next? (c :: cs) = some (token, after)) :
    c :: cs = token.text.toList ++ after ∧ Lexeme token after := by
  rcases next?_cases hblank h with ⟨rfl, rfl, rfl⟩ | ⟨rfl, rfl, rfl⟩ |
    ⟨body, hquote, hbody, rfl⟩ | ⟨run, hne, hrun, hend, heq, rfl⟩
  · refine ⟨rfl, .opening, ?_, nofun⟩
    exact iff_of_false (by simp) fun h => not_isNumberText_cons (by decide) (by decide) _ h.1
  · refine ⟨rfl, .closing, ?_, nofun⟩
    exact iff_of_false (by simp) fun h => not_isNumberText_cons (by decide) (by decide) _ h.1
  · obtain ⟨inner, hinner, rfl⟩ := literalBody_of_literalBody? hbody
    have hquote' := isQuote_eq_true_iff.mp hquote
    refine ⟨?_, .literal ?_, ?_, nofun⟩
    · rw [Token.text, String.toList_ofList, literalBody?_eq_append hbody, List.cons_append]
    · rw [String.toList_ofList]
      exact ⟨c, inner, hquote', hinner, rfl⟩
    · rw [Token.text, String.toList_ofList]
      refine iff_of_false (by simp) fun h => not_isNumberText_cons ?_ ?_ _ h.1
      · rcases hquote' with rfl | rfl <;> decide
      · rcases hquote' with rfl | rfl <;> decide
  · have htext : (runToken run after).text.toList = run := by
      rw [runToken]
      split <;> exact String.toList_ofList
    exact ⟨by rw [htext, heq], lexeme_runToken (wordRun_of_isWordPart hne hrun) hend⟩

/-- A number ends where its run does. -/
theorem not_isWordPart_of_numberEnds (h : NumberEnds after) :
    ∀ c, after.head? = some c → Token.isWordPart c = false := by
  intro c hc
  rw [not_isWordPart_iff]
  rcases h c hc with hblank | rfl | rfl
  · exact .inl hblank
  · exact .inr (by decide)
  · exact .inr (by decide)

/-- **Every token is the one that the scanner takes there.** -/
theorem Lexeme.next? (h : Lexeme token after) :
    Token.next? (token.text.toList ++ after) = some (token, after) := by
  obtain ⟨hspelled, hnumber, hlongest⟩ := h
  cases hspelled with
  | opening => rfl
  | closing => rfl
  | @literal text htext =>
      obtain ⟨quote, body, hquote, hbody, heq⟩ := htext
      rw [← isQuote_eq_true_iff] at hquote
      have hclosed := hbody.literalBody? (quote_ne_backslash hquote) after
      rw [Token.text, heq, List.cons_append, List.append_assoc, List.singleton_append,
        next?_literal hquote hclosed, ← heq, String.ofList_toList]
  | @number text hrun =>
      obtain ⟨hform, hends⟩ := hnumber.mp ⟨text, rfl⟩
      have hend := not_isWordPart_of_numberEnds hends
      have hyes : (Token.isNumber text.toList && !after.head?.any Token.isQuote) = true := by
        rw [Bool.and_eq_true, Bool.not_eq_true', ← numberEnds_iff hend, isNumber_eq_true_iff]
        exact ⟨hform, hends⟩
      rw [Token.text, next?_run hrun.nonempty hrun.isWordPart hend, runToken, if_pos hyes,
        String.ofList_toList]
  | @word text hrun =>
      have hend : ∀ c, after.head? = some c → Token.isWordPart c = false :=
        fun c hc => not_isWordPart_iff.mpr (hlongest text rfl c hc)
      have hno : ¬ (Token.isNumber text.toList && !after.head?.any Token.isQuote) = true := by
        rw [Bool.and_eq_true, Bool.not_eq_true', ← numberEnds_iff hend, isNumber_eq_true_iff]
        intro h
        obtain ⟨other, hother⟩ := hnumber.mpr h
        cases hother
      rw [Token.text, next?_run hrun.nonempty hrun.isWordPart hend, runToken, if_neg hno,
        String.ofList_toList]

/-- **The scanner is stuck at a quote that begins no literal, and nowhere else.** -/
theorem unclosed_of_next? {c : Char} (h : Token.next? (c :: cs) = none) : Unclosed c cs := by
  by_cases hopening : c = '('
  · subst hopening
    cases h
  by_cases hclosing : c = ')'
  · subst hclosing
    cases h
  rw [Token.next?.eq_4 _ _ hopening hclosing] at h
  by_cases hquote : Token.isQuote c = true
  · rw [if_pos hquote, Option.map_eq_none_iff] at h
    exact unclosed_of_literalBody? hquote h
  · rw [if_neg hquote] at h
    cases h

theorem Unclosed.next? {quote : Char} (h : Unclosed quote cs) :
    Token.next? (quote :: cs) = none := by
  have hquote := isQuote_eq_true_iff.mpr h.isQuote
  have hne : ∀ c ∈ ['(', ')'], quote ≠ c := by rcases h.isQuote with rfl | rfl <;> decide
  rw [Token.next?.eq_4 _ _ (hne '(' (by decide)) (hne ')' (by decide)), if_pos hquote,
    Option.map_eq_none_iff]
  cases hbody : Token.literalBody? quote cs with
  | none => rfl
  | some found =>
      obtain ⟨body, after⟩ := found
      obtain ⟨inner, hinner, rfl⟩ := literalBody_of_literalBody? hbody
      refine absurd ?_ (h.noLiteral (quote :: (inner ++ [quote])) after
        ⟨quote, inner, h.isQuote, hinner, rfl⟩)
      rw [literalBody?_eq_append hbody, List.cons_append]

end Tokens

/-! ## A whole text -/

section Scanning

variable {cs rest : List Char} {tokens : List Token} {source : String}

/-- **What is cut off at the front is what the scanner takes**, and it goes on with the rest. -/
theorem Lexes.scan (h : Lexes cs tokens rest) (source : String) {fuel : Nat}
    (hfuel : cs.length ≤ fuel) :
    ∃ fuel', rest.length ≤ fuel' ∧
      Token.scan source fuel cs = (Token.scan source fuel' rest).map (tokens ++ ·) := by
  induction h generalizing fuel with
  | start =>
      refine ⟨fuel, hfuel, ?_⟩
      cases Token.scan source fuel _ <;> rfl
  | blank hblank _ ih =>
      rw [scan_blank hblank]
      exact ih (Nat.le_of_succ_le hfuel)
  | @token token after rest tokens htoken _ ih =>
      obtain ⟨c, more, hblank, htext⟩ := htoken.spelled.exists_cons
      have hnext := htoken.next?
      rw [htext, List.cons_append] at hfuel hnext ⊢
      rw [List.length_cons, List.length_append] at hfuel
      obtain ⟨fuel, rfl⟩ : ∃ n, fuel = n + 1 := Nat.exists_eq_add_one.mpr (by omega)
      have hafter : after.length ≤ fuel := by omega
      obtain ⟨fuel', hrest, hscan⟩ := ih hafter
      refine ⟨fuel', hrest, ?_⟩
      rw [scan_token hblank hnext, hscan]
      cases Token.scan source fuel' rest <;> rfl

/-- A text is cut to its end, or up to a quote that begins no literal. -/
theorem lexes_total (cs : List Char) :
    (∃ tokens, Lexes cs tokens []) ∨
      ∃ tokens quote rest, Lexes cs tokens (quote :: rest) ∧ Unclosed quote rest := by
  induction hn : cs.length using Nat.strong_induction_on generalizing cs with
  | _ n ih =>
      subst hn
      cases cs with
      | nil => exact .inl ⟨[], .start⟩
      | cons c cs =>
          by_cases hblank : isBlank c = true
          · rcases ih cs.length (Nat.lt_succ_self _) cs rfl with ⟨tokens, h⟩ |
              ⟨tokens, quote, rest, h, hquote⟩
            · exact .inl ⟨tokens, .blank hblank h⟩
            · exact .inr ⟨tokens, quote, rest, .blank hblank h, hquote⟩
          · rw [Bool.not_eq_true] at hblank
            cases hnext : Token.next? (c :: cs) with
            | none => exact .inr ⟨[], c, cs, .start, unclosed_of_next? hnext⟩
            | some found =>
                obtain ⟨token, after⟩ := found
                obtain ⟨htext, htoken⟩ := lexeme_of_next? hblank hnext
                rw [htext]
                rcases ih _ (length_of_next? hblank hnext) after rfl with ⟨tokens, h⟩ |
                  ⟨tokens, quote, rest, h, hquote⟩
                · exact .inl ⟨token :: tokens, .token htoken h⟩
                · exact .inr ⟨token :: tokens, quote, rest, .token htoken h, hquote⟩

/-- What is cut off spells the text. -/
theorem Lexes.interleaved (h : Lexes cs tokens rest) (hrest : Blanks rest) :
    Interleaved cs tokens := by
  induction h with
  | @start cs => exact ⟨[], cs, rfl, nofun, hrest, rfl⟩
  | @blank c cs rest tokens hblank _ ih =>
      obtain ⟨gaps, last, hlength, hgaps, hlast, rfl⟩ := ih hrest
      -- the blank lengthens the gap before the first token, or the one at the end
      cases tokens with
      | nil =>
          rw [List.zipWith_nil_right, List.flatten_nil, List.nil_append]
          exact ⟨[], c :: last, rfl, nofun, List.forall_mem_cons.mpr ⟨hblank, hlast⟩, rfl⟩
      | cons token tokens =>
          obtain ⟨gap, gaps, rfl⟩ := List.exists_cons_of_length_eq_add_one hlength
          obtain ⟨hgap, hgaps⟩ := List.forall_mem_cons.mp hgaps
          refine ⟨(c :: gap) :: gaps, last, hlength, ?_, hlast, rfl⟩
          exact List.forall_mem_cons.mpr ⟨List.forall_mem_cons.mpr ⟨hblank, hgap⟩, hgaps⟩
  | @token token after rest tokens _ _ ih =>
      obtain ⟨gaps, last, hlength, hgaps, hlast, rfl⟩ := ih hrest
      refine ⟨[] :: gaps, last, congrArg (· + 1) hlength, ?_, hlast, ?_⟩
      · exact List.forall_mem_cons.mpr ⟨nofun, hgaps⟩
      · rw [List.zipWith_cons_cons, List.nil_append, List.flatten_cons, List.append_assoc]

theorem scan_of_lexes (h : Lexes cs tokens []) {fuel : Nat} (hfuel : cs.length ≤ fuel) :
    Token.scan source fuel cs = .ok tokens := by
  obtain ⟨fuel', -, hscan⟩ := h.scan source hfuel
  rw [hscan, scan_nil]
  show Except.ok (tokens ++ []) = _
  rw [List.append_nil]

theorem scan_of_unclosed {quote : Char} (h : Lexes cs tokens (quote :: rest))
    (hquote : Unclosed quote rest) {fuel : Nat} (hfuel : cs.length ≤ fuel) :
    Token.scan source fuel cs = .error (.unexpectedCharacter quote source) := by
  obtain ⟨fuel', hlength, hscan⟩ := h.scan source hfuel
  obtain ⟨fuel', rfl⟩ : ∃ n, fuel' = n + 1 :=
    Nat.exists_eq_add_one.mpr (Nat.lt_of_lt_of_le (Nat.succ_pos _) hlength)
  have hblank : isBlank quote = false := by rcases hquote.isQuote with rfl | rfl <;> decide
  rw [hscan, scan_stuck hblank hquote.next?]
  rfl

end Scanning

/-- **An expression has the tokens that spell it, or is refused at a quote that begins no
literal.** -/
theorem tokenize_lexes (expression : String) :
    (∀ tokens, Token.tokenize expression = .ok tokens ↔
        Lexes (trim expression.toList) tokens []) ∧
      (∀ tokens, Token.tokenize expression = .ok tokens →
        Interleaved (trim expression.toList) tokens) ∧
      ∀ e, Token.tokenize expression = .error e ↔
        ∃ tokens quote rest, Lexes (trim expression.toList) tokens (quote :: rest) ∧
          Unclosed quote rest ∧ e = .unexpectedCharacter quote expression := by
  have hok : ∀ tokens, Lexes (trim expression.toList) tokens [] →
      Token.tokenize expression = .ok tokens :=
    fun tokens h => scan_of_lexes h (Nat.le_refl _)
  have herror : ∀ tokens quote rest, Lexes (trim expression.toList) tokens (quote :: rest) →
      Unclosed quote rest →
      Token.tokenize expression = .error (.unexpectedCharacter quote expression) :=
    fun tokens quote rest h hquote => scan_of_unclosed h hquote (Nat.le_refl _)
  have hlexes : ∀ tokens, Token.tokenize expression = .ok tokens ↔
      Lexes (trim expression.toList) tokens [] := by
    intro tokens
    refine ⟨fun h => ?_, hok tokens⟩
    rcases lexes_total (trim expression.toList) with ⟨found, hfound⟩ |
      ⟨front, quote, rest, hfront, hquote⟩
    · rw [hok found hfound] at h
      cases h
      exact hfound
    · rw [herror front quote rest hfront hquote] at h
      cases h
  refine ⟨hlexes, fun tokens h => ((hlexes tokens).mp h).interleaved nofun, fun e => ?_⟩
  constructor
  · intro h
    rcases lexes_total (trim expression.toList) with ⟨found, hfound⟩ |
      ⟨front, quote, rest, hfront, hquote⟩
    · rw [hok found hfound] at h
      cases h
    · rw [herror front quote rest hfront hquote] at h
      cases h
      exact ⟨front, quote, rest, hfront, hquote, rfl⟩
  · intro h
    obtain ⟨front, quote, rest, hfront, hquote, rfl⟩ := h
    exact herror front quote rest hfront hquote

/-- A number that a quote follows directly is a word; a sign and a fraction belong to the number. -/
theorem lexes_word_literal_number :
    Lexes (trim "eq 12'a b' -1.5".toList)
        [.word "eq", .word "12", .literal "'a b'", .number "-1.5"] [] ∧
      Interleaved (trim "eq 12'a b' -1.5".toList)
        [.word "eq", .word "12", .literal "'a b'", .number "-1.5"] ∧
      ∃ tokens quote rest, Lexes (trim "n 12'".toList) tokens (quote :: rest) ∧
        Unclosed quote rest ∧ SyntaxError.unexpectedCharacter '\'' "n 12'" =
          .unexpectedCharacter quote "n 12'" :=
  ⟨((tokenize_lexes _).1 _).mp (by rfl), (tokenize_lexes _).2.1 _ (by rfl),
    ((tokenize_lexes _).2.2 _).mp (by rfl)⟩

end Formwork.Proofs
