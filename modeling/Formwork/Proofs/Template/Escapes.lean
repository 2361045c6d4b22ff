import Formwork.Proofs.Template.Lexemes
import Formwork.Proofs.Template.Passes

/-!
# Texts between quotes

Any text can be written as a literal: each backslash is doubled, then a backslash goes in front of
each quote, and quotes go around it all (`Token.quote`). The scanner takes what is written this way
for one literal, and reading takes the two replacements back in the opposite order, so that a
literal stands for the text that it was made from (`unquote_quote`).

A replacement works without regard to where an escape begins, and the backslashes of a text may
stand in runs of any length. What keeps it right is that one pass of escaping leaves no character
of its kind without a backslash before it: the pattern then begins nowhere but at those backslashes
(`replaceAll_escape`), whatever the text is.
-/

namespace Formwork.Template.Token

/-- A text with a backslash in front of each `c`. -/
def escape (c : Char) (cs : List Char) : List Char :=
  cs.flatMap fun d => if d = c then ['\\', d] else [d]

/-- A text between quotes, its backslashes doubled and then the quotes in it escaped. -/
def quote (delimiter : Char) (s : String) : String :=
  String.ofList (delimiter :: (escape delimiter (escape '\\' s.toList) ++ [delimiter]))

end Formwork.Template.Token

namespace Formwork.Proofs

open Formwork Formwork.Template Formwork.Text

/-! ## Replacing -/

section Replacing

variable {needle replacement cs behind : List Char}

theorem splitBy_go_nil (hne : needle ≠ []) (fuel : Nat) : splitBy.go needle fuel [] = [[]] := by
  cases fuel with
  | zero => rfl
  | succ fuel =>
      have hnone : breakAt? needle [] = none :=
        breakAt?_eq_none_iff.mpr fun hin => hne (List.infix_nil.mp hin)
      rw [splitBy.go, hnone]

/-- The parts do not depend on the steps that are left over. -/
theorem splitBy_go_eq_go (hne : needle ≠ []) {n m : Nat} (hn : cs.length ≤ n)
    (hm : cs.length ≤ m) : splitBy.go needle n cs = splitBy.go needle m cs := by
  induction n generalizing cs m with
  | zero =>
      obtain rfl : cs = [] := List.length_eq_zero_iff.mp (Nat.le_zero.mp hn)
      rw [splitBy_go_nil hne, splitBy_go_nil hne]
  | succ n ih =>
      cases m with
      | zero =>
          obtain rfl : cs = [] := List.length_eq_zero_iff.mp (Nat.le_zero.mp hm)
          rw [splitBy_go_nil hne, splitBy_go_nil hne]
      | succ m =>
          rw [splitBy.go, splitBy.go]
          cases hbreak : breakAt? needle cs with
          | none => rfl
          | some found =>
              -- behind an occurrence the text is shorter, so that either side has enough steps
              obtain ⟨before, after⟩ := found
              have hlength := congrArg List.length (leftmost_of_breakAt? hbreak).found
              have hpos := List.length_pos_of_ne_nil hne
              simp only [List.length_append] at hlength
              exact congrArg (before :: ·) (ih (by omega) (by omega))

theorem splitBy_go_ne_nil {fuel : Nat} : splitBy.go needle fuel cs ≠ [] := by
  cases fuel with
  | zero => exact List.cons_ne_nil _ _
  | succ fuel =>
      rw [splitBy.go]
      cases breakAt? needle cs <;> exact List.cons_ne_nil _ _

theorem replaceAll_eq (hne : needle ≠ []) {fuel : Nat} (hfuel : cs.length ≤ fuel) :
    replaceAll needle replacement cs = replacement.intercalate (splitBy.go needle fuel cs) := by
  have hempty : needle.isEmpty = false := List.isEmpty_eq_false_iff.mpr hne
  rw [replaceAll, splitBy, hempty, if_neg Bool.false_ne_true,
    splitBy_go_eq_go hne (Nat.le_refl _) hfuel]

theorem replaceAll_nil (hne : needle ≠ []) : replaceAll needle replacement [] = [] := by
  rw [replaceAll_eq hne (Nat.le_refl _), splitBy_go_nil hne, List.intercalate_singleton]

/-- An occurrence at the front is replaced. -/
theorem replaceAll_append (hne : needle ≠ []) : replaceAll needle replacement (needle ++ behind) =
    replacement ++ replaceAll needle replacement behind := by
  have hbreak : breakAt? needle (needle ++ behind) = some ([], behind) :=
    breakAt?_behind hne fun s hs hsuffix => absurd (List.suffix_nil.mp hsuffix) hs
  rw [replaceAll_eq hne (Nat.le_succ _), splitBy.go, hbreak]
  dsimp only
  rw [List.intercalate_cons_of_ne_nil splitBy_go_ne_nil, List.nil_append,
    ← replaceAll_eq hne (by rw [List.length_append]; omega)]

/-- A character where there is no occurrence is kept. -/
theorem replaceAll_cons (hne : needle ≠ []) {c : Char} (h : ¬ needle <+: c :: cs) :
    replaceAll needle replacement (c :: cs) = c :: replaceAll needle replacement cs := by
  -- with as many steps for the rest as for the whole text, both look for the same occurrence
  have hlength : cs.length ≤ cs.length + 1 := Nat.le_succ _
  rw [replaceAll_eq hne (Nat.le_refl _), replaceAll_eq hne hlength, List.length_cons,
    splitBy.go, splitBy.go, breakAt?, isPrefixOf?_eq_none_iff.mpr h]
  cases breakAt? needle cs with
  | none =>
      rw [List.intercalate_singleton]
      exact List.intercalate_singleton
  | some found =>
      obtain ⟨before, after⟩ := found
      simp only [Option.map_some]
      rw [List.intercalate_cons_of_ne_nil splitBy_go_ne_nil,
        List.intercalate_cons_of_ne_nil splitBy_go_ne_nil]
      rfl

end Replacing

/-! ## Escaping -/

section Escaping

variable {c d delimiter : Char}

theorem escape_cons_self (c : Char) (cs : List Char) :
    Token.escape c (c :: cs) = '\\' :: c :: Token.escape c cs := by
  rw [Token.escape, List.flatMap_cons, if_pos rfl]
  rfl

theorem escape_cons_of_ne (h : d ≠ c) (cs : List Char) :
    Token.escape c (d :: cs) = d :: Token.escape c cs := by
  rw [Token.escape, List.flatMap_cons, if_neg h]
  rfl

/-- No escaped text begins with what is escaped, but for the backslash. -/
theorem head?_escape (h : c ≠ '\\') (cs : List Char) : (Token.escape c cs).head? ≠ some c := by
  cases cs with
  | nil => exact nofun
  | cons d cs =>
      by_cases hd : d = c
      · subst hd
        rw [escape_cons_self, List.head?_cons]
        exact fun heq => h (Option.some.inj heq).symm
      · rw [escape_cons_of_ne hd, List.head?_cons]
        exact fun heq => hd (Option.some.inj heq)

/-- **Replacing undoes escaping**, of any character in any text. -/
theorem replaceAll_escape (c : Char) (cs : List Char) :
    replaceAll ['\\', c] [c] (Token.escape c cs) = cs := by
  have hne : ['\\', c] ≠ [] := List.cons_ne_nil _ _
  induction cs with
  | nil => exact replaceAll_nil hne
  | cons d cs ih =>
      by_cases hd : d = c
      · subst hd
        have hfront : replaceAll ['\\', d] [d] (['\\', d] ++ Token.escape d cs) =
            [d] ++ replaceAll ['\\', d] [d] (Token.escape d cs) := replaceAll_append hne
        rw [escape_cons_self]
        exact hfront.trans (congrArg (d :: ·) ih)
      · -- behind a backslash of the text itself there is no bare `c`
        have hapart : ¬ ['\\', c] <+: d :: Token.escape c cs := by
          rintro ⟨rest, heq⟩
          obtain ⟨rfl, hrest⟩ := List.cons.inj heq
          exact head?_escape (Ne.symm hd) cs (by rw [← hrest]; rfl)
        rw [escape_cons_of_ne hd, replaceAll_cons hne hapart, ih]

/-- What is escaped can stand between quotes. -/
theorem literalBody_escape (hslash : delimiter ≠ '\\') (hline : delimiter ≠ '\n')
    (cs : List Char) : LiteralBody delimiter (Token.escape delimiter (Token.escape '\\' cs)) := by
  induction cs with
  | nil => exact .nil
  | cons c cs ih =>
      by_cases hc : c = '\\'
      · subst hc
        rw [escape_cons_self, escape_cons_of_ne hslash.symm, escape_cons_of_ne hslash.symm]
        exact .escaped (by decide) ih
      · rw [escape_cons_of_ne hc]
        by_cases hquote : c = delimiter
        · subst hquote
          rw [escape_cons_self]
          exact .escaped hline ih
        · rw [escape_cons_of_ne hquote]
          exact .char hquote hc ih

end Escaping

/-! ## Quoting -/

section Quoting

variable {delimiter : Char}

/-- A quoted text is one token, whatever follows it. -/
theorem next?_quote (h : Token.isQuote delimiter = true) (s : String) (after : List Char) :
    Token.next? ((Token.quote delimiter s).toList ++ after) =
      some (.literal (Token.quote delimiter s), after) := by
  have hline : delimiter ≠ '\n' := by rcases quote_cases h with rfl | rfl <;> decide
  have hbody := literalBody_escape (quote_ne_backslash h) hline s.toList
  have hclosed := hbody.literalBody? (quote_ne_backslash h) after
  rw [Token.quote, String.toList_ofList, List.cons_append, List.append_assoc,
    List.singleton_append]
  exact next?_literal h hclosed

theorem tokenize_quote (h : Token.isQuote delimiter = true) (s : String) :
    Token.tokenize (Token.quote delimiter s) = .ok [.literal (Token.quote delimiter s)] := by
  have hblank : isBlank delimiter = false := by rcases quote_cases h with rfl | rfl <;> decide
  have htext : (Token.quote delimiter s).toList =
      delimiter :: (Token.escape delimiter (Token.escape '\\' s.toList) ++ [delimiter]) :=
    String.toList_ofList
  have hnext := next?_quote h s []
  rw [List.append_nil, htext] at hnext
  rw [Token.tokenize, htext, trim_of_ends hblank hblank, List.length_cons,
    scan_token hblank hnext, scan_nil]
  rfl

end Quoting

/-- **A quoted text is one literal, and stands for the text.** -/
theorem unquote_quote {delimiter : Char} (h : delimiter = '"' ∨ delimiter = '\'') (s : String) :
    Token.tokenize (Token.quote delimiter s) = .ok [.literal (Token.quote delimiter s)] ∧
      Token.unquote (Token.quote delimiter s) = s := by
  refine ⟨tokenize_quote (isQuote_eq_true_iff.mpr h) s, ?_⟩
  rw [Token.unquote, Token.quote, String.toList_ofList]
  dsimp only
  -- the quotes were escaped last and are taken back first
  rw [List.dropLast_concat, replaceAll_escape, replaceAll_escape, String.ofList_toList]

/-- Backslashes before a quote and at the end, and a quote of the other kind. -/
theorem unquote_quote_backslashes :
    ('"' = '"' ∨ '"' = '\'') ∧ Token.quote '"' "a\\\\\"'b\\" = "\"a\\\\\\\\\\\"'b\\\\\"" ∧
      Token.tokenize "\"a\\\\\\\\\\\"'b\\\\\"" = .ok [.literal "\"a\\\\\\\\\\\"'b\\\\\""] ∧
      Token.unquote "\"a\\\\\\\\\\\"'b\\\\\"" = "a\\\\\"'b\\" :=
  ⟨.inl rfl, by decide, unquote_quote (.inl rfl) "a\\\\\"'b\\"⟩

end Formwork.Proofs
