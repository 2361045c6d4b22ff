import Formwork.Proofs.Template.Words

/-!
# Comparing with a literal

A literal in double quotes stands for what is written between them, as long as that holds no quote
and no backslash: line ends and control characters are part of it, and it reaches the comparison as
it was written. There it is compared by its UTF-16 units. A text of the context is made of whole
characters, so that it equals a literal exactly when it is the same text and none of its characters
is written as two units (`equals_literal`).
-/

namespace Formwork.Proofs

open Formwork Formwork.Template Formwork.Text

/-- What is inside a condition that compares a field with a literal. -/
def comparison (body : List Char) : List Char :=
  ['e', 'q', ' ', 'x', ' ', '"'] ++ body ++ ['"']

section Comparison

variable {body : List Char}

theorem comparison_sole (h : ∀ c ∈ body, c ∉ ['{', '}']) : Sole (comparison body) where
  nonempty := nofun
  noBrace := by
    have hfront : ∀ c ∈ ['e', 'q', ' ', 'x', ' ', '"'], c ∉ ['{', '}'] := by decide
    intro c hc
    rw [comparison, List.mem_append, List.mem_append] at hc
    rcases hc with (hc | hc) | hc
    · exact hfront c hc
    · exact h c hc
    · rw [List.mem_singleton.mp hc]
      decide
  start := by
    rintro c ⟨⟩
    decide
  ending := by
    intro c hc
    rw [comparison, List.getLast?_concat] at hc
    cases hc
    decide
  notElse := nofun

theorem trim_comparison (body : List Char) : trim (comparison body) = comparison body :=
  trim_of_ends (by decide) (by decide) (['q', ' ', 'x', ' ', '"'] ++ body)

theorem tokenize_comparison (hquote : '"' ∉ body) (hslash : '\\' ∉ body) :
    Token.tokenize (String.ofList (comparison body)) =
      .ok [.word "eq", .word "x", .literal (String.ofList ('"' :: (body ++ ['"'])))] := by
  have hlength : (comparison body).length = body.length + 4 + 1 + 1 + 1 := by
    simp [comparison]
  rw [Token.tokenize, String.toList_ofList, trim_comparison, hlength]
  generalize String.ofList (comparison body) = source
  have hliteral : Token.scan source (body.length + 4 + 1) ('"' :: (body ++ ['"'])) =
      .ok [.literal (String.ofList ('"' :: (body ++ ['"'])))] := by
    rw [scan_literal (by decide) hquote hslash, scan_nil]
    rfl
  show Token.scan source (body.length + 4 + 1 + 1 + 1)
    (['e', 'q'] ++ ' ' :: (['x'] ++ ' ' :: '"' :: (body ++ ['"']))) = _
  rw [scan_word_space (by decide) (by decide) (by decide),
    scan_word_space (by decide) (by decide) (by decide), hliteral]
  rfl

/-- The comparison is read with the literal as it is written. -/
theorem read_comparison (hquote : '"' ∉ body) (hslash : '\\' ∉ body) :
    Expr.read [] (String.ofList (comparison body)) =
      .ok (.call .eq [.reference ⟨.context, [.key "x"]⟩, .literal (String.ofList body)]) := by
  have hunquote : Token.unquote (String.ofList ('"' :: (body ++ ['"']))) = String.ofList body :=
    unquote_literal hslash
  rw [Expr.read, tokenize_comparison hquote hslash, ok_bind, ← hunquote]
  rfl

theorem equal_str (v : Value) (s : String) : v.equal (.str s) = true ↔ v = .str s := by
  cases v <;> simp [Value.equal, Value.isBool, Value.same, Value.sameScalar, Value.number?]

/-- What a field holds equals a literal when it is the same text, without wide characters. -/
theorem equal_ofLiteral (found : Option Value) (s : String) :
    (Operand.ofOption found).equal (.ofLiteral s) = true ↔
      found = some (.str s) ∧ ∀ c ∈ s.toList, Operand.isWide c = false := by
  by_cases hwide : s.toList.any Operand.isWide = true
  · -- a literal of halves is no text that a context can hold
    have hliteral : Operand.ofLiteral s = .split s := if_pos hwide
    obtain ⟨c, hc, hwide⟩ := List.any_eq_true.mp hwide
    have hunequal : (Operand.ofOption found).equal (.split s) = false := by
      cases found <;> rfl
    rw [hliteral, hunequal]
    refine iff_of_false Bool.false_ne_true fun hall => ?_
    rw [hall.2 c hc] at hwide
    cases hwide
  · have hliteral : Operand.ofLiteral s = .value (.str s) := if_neg hwide
    have hnarrow : ∀ c ∈ s.toList, Operand.isWide c = false := by simpa using hwide
    rw [hliteral, and_iff_left hnarrow]
    cases found with
    | none =>
        show Value.null.equal (.str s) = true ↔ _
        rw [equal_str]
        exact iff_of_false nofun nofun
    | some v =>
        show v.equal (.str s) = true ↔ _
        rw [equal_str, Option.some.injEq]

/-- The condition is the comparison of what the field holds with the literal. -/
theorem evaluateCondition_comparison (hsigns : ∀ c ∈ body, c ∉ ['"', '\\', '{', '}'])
    (context : Members) :
    evaluateCondition defaultRules (.str (mustache (comparison body))) context =
      .ok ((Operand.ofOption (Ordered.get? context "x")).equal
        (.ofLiteral (String.ofList body))) := by
  have hnot : ∀ c ∈ ['"', '\\', '{', '}'], c ∉ body := fun c hc hmem => hsigns c hmem hc
  have hbraces : ∀ c ∈ body, c ∉ ['{', '}'] := fun c hmem hc =>
    hsigns c hmem (List.mem_cons_of_mem _ (List.mem_cons_of_mem _ hc))
  have heval : (Expr.call .eq [.reference ⟨.context, [.key "x"]⟩,
      .literal (String.ofList body)]).eval ⟨context, []⟩ =
        .ok (.value (.bool ((Operand.ofOption (Ordered.get? context "x")).equal
          (.ofLiteral (String.ofList body))))) := by
    rw [← follow_key (by decide) ⟨context, []⟩]
    rfl
  have hvalue := evaluateExpression_of_read
    (read_comparison (hnot _ (by decide)) (hnot _ (by decide))) rfl heval
  rw [evaluateCondition, (comparison_sole hbraces).holds_eq hvalue]
  cases (Operand.ofOption (Ordered.get? context "x")).equal (.ofLiteral (String.ofList body)) <;>
    decide

end Comparison

theorem mustache_comparison (s : String) :
    "\x7b\x7beq x \"" ++ s ++ "\"\x7d\x7d" = mustache (comparison s.toList) :=
  eq_mustache (by simp [comparison])

/--
**A literal is equal to itself, unless it has wide characters, and to nothing else.**

The condition compares the field `x` with a literal, written between double quotes without quotes,
backslashes and braces.
-/
theorem equals_literal (s : String) (hs : ∀ c ∈ s.toList, c ∉ ['"', '\\', '{', '}'])
    (context : Members) :
    ∃ answer,
      evaluateCondition defaultRules (.str ("\x7b\x7beq x \"" ++ s ++ "\"\x7d\x7d")) context =
          .ok answer
        ∧ (answer = true ↔
          Ordered.get? context "x" = some (.str s) ∧ ∀ c ∈ s.toList, Operand.isWide c = false) := by
  rw [mustache_comparison, evaluateCondition_comparison hs, String.ofList_toList]
  exact ⟨_, rfl, equal_ofLiteral _ s⟩

/-- Line ends, control characters and quotes of the other kind are part of a literal. -/
theorem equals_literal_lines :
    evaluateCondition defaultRules (.str ("\x7b\x7beq x \"" ++ "it's\r\n\u0001é" ++ "\"\x7d\x7d"))
        [("x", .str "it's\r\n\u0001é")] = .ok true
      ∧ evaluateCondition defaultRules
          (.str ("\x7b\x7beq x \"" ++ "it's\r\n\u0001é" ++ "\"\x7d\x7d"))
        [("x", .str "it's\n\u0001é")] = .ok false := by
  have hliteral := equals_literal "it's\r\n\u0001é" (by decide)
  obtain ⟨own, hown, hequal⟩ := hliteral [("x", .str "it's\r\n\u0001é")]
  obtain ⟨other, hother, hdiffer⟩ := hliteral [("x", .str "it's\n\u0001é")]
  obtain rfl : own = true := hequal.mpr ⟨rfl, by decide⟩
  obtain rfl : other = false := by
    refine Bool.eq_false_iff.mpr fun h => ?_
    have hsame : some (Value.str "it's\n\u0001é") = some (.str "it's\r\n\u0001é") :=
      (hdiffer.mp h).1
    exact absurd (Value.str.inj (Option.some.inj hsame)) (by decide)
  exact ⟨hown, hother⟩

/-- A literal with a wide character is not equal to itself. -/
theorem wide_literal_unequal :
    evaluateCondition defaultRules (.str "\x7b\x7beq x \"😀\"\x7d\x7d") [("x", .str "😀")] =
      .ok false := by
  have hsource : "\x7b\x7beq x \"😀\"\x7d\x7d" = mustache (comparison ['😀']) := by decide
  rw [hsource, evaluateCondition_comparison (by decide)]
  rfl

end Formwork.Proofs
