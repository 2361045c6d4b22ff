import Formwork.Proofs.Template.Spacing

/-!
# Passes over a source

A lexical rule goes over a source from left to right. Where it matches it puts its replacement and
goes on behind the match, and elsewhere it keeps the character (`replaceMatches_match`,
`replaceMatches_skip`), so that it keeps a text as it is as long as it matches nowhere in it
(`replaceMatches_append`). The built-in rules are five passes, which may be taken to run in any
case: a rule that has nothing to do would change nothing (`applyAll_passed`).

The pass over opening tildes takes the blanks in front of them. What it does on one side of a
character that is no part of a match does not depend on the other side (`opened_barrier`), and a
text without braces loses at most the blanks at its end (`opened_tilde`, `opened_front`).
-/

namespace Formwork.Proofs

open Formwork Formwork.Template Formwork.Text

/-! ## Matches -/

section Matches

variable {matchAt : List Char → Option (List Char × List Char)}
variable {c : Char} {cs front behind replacement after : List Char}

/-- What follows a match is shorter. -/
def Shrinks (matchAt : List Char → Option (List Char × List Char)) : Prop :=
  ∀ cs replacement after, matchAt cs = some (replacement, after) → after.length < cs.length

/-- The steps that the length of a text allows are enough. -/
theorem replaceMatches_go (hshrinks : Shrinks matchAt) {fuel : Nat} (hfuel : cs.length ≤ fuel) :
    replaceMatches.go matchAt fuel cs = replaceMatches matchAt cs := by
  induction hn : cs.length using Nat.strong_induction_on generalizing cs fuel with
  | _ n ih =>
      subst hn
      cases cs with
      | nil => cases fuel <;> rfl
      | cons c cs =>
          obtain ⟨fuel, rfl⟩ : ∃ n, fuel = n + 1 :=
            Nat.exists_eq_add_one.mpr (Nat.lt_of_lt_of_le (Nat.succ_pos _) hfuel)
          have hlength : cs.length ≤ fuel := Nat.le_of_succ_le_succ hfuel
          rw [replaceMatches, List.length_cons, replaceMatches.go, replaceMatches.go]
          cases hmatch : matchAt (c :: cs) with
          | none =>
              dsimp only
              rw [ih cs.length (Nat.lt_succ_self _) hlength rfl]
              rfl
          | some found =>
              obtain ⟨replacement, after⟩ := found
              have hafter := hshrinks _ _ _ hmatch
              rw [List.length_cons] at hafter
              dsimp only
              rw [ih after.length hafter (by omega) rfl, ih after.length hafter (by omega) rfl]

theorem replaceMatches_skip (h : matchAt (c :: cs) = none) :
    replaceMatches matchAt (c :: cs) = c :: replaceMatches matchAt cs := by
  rw [replaceMatches, List.length_cons, replaceMatches.go, h]
  rfl

theorem replaceMatches_match (hshrinks : Shrinks matchAt)
    (h : matchAt (c :: cs) = some (replacement, after)) :
    replaceMatches matchAt (c :: cs) = replacement ++ replaceMatches matchAt after := by
  have hafter := hshrinks _ _ _ h
  rw [replaceMatches, List.length_cons, replaceMatches.go, h]
  dsimp only
  rw [replaceMatches_go hshrinks (Nat.le_of_lt_succ hafter)]

/-- **A text is kept where nothing in it matches.** -/
theorem replaceMatches_append
    (h : ∀ s, s ≠ [] → s <:+ front → matchAt (s ++ behind) = none) :
    replaceMatches matchAt (front ++ behind) = front ++ replaceMatches matchAt behind := by
  induction front with
  | nil => rfl
  | cons c front ih =>
      have hhere : matchAt (c :: (front ++ behind)) = none :=
        h (c :: front) (List.cons_ne_nil _ _) (List.suffix_refl _)
      rw [List.cons_append, replaceMatches_skip hhere,
        ih fun s hs hsuffix => h s hs (hsuffix.trans (List.suffix_cons ..)), List.cons_append]

theorem replaceMatches_self (h : ∀ s, s ≠ [] → s <:+ cs → matchAt s = none) :
    replaceMatches matchAt cs = cs := by
  have hall : replaceMatches matchAt (cs ++ []) = cs ++ [] :=
    replaceMatches_append fun s hs hsuffix => by
      rw [List.append_nil]
      exact h s hs hsuffix
  rwa [List.append_nil] at hall

/-- What begins with the character that every replacement begins with still does. -/
theorem head?_replaceMatches {x : Char} (hshrinks : Shrinks matchAt)
    (hreplaced : ∀ cs replacement after, matchAt cs = some (replacement, after) →
      replacement.head? = some x)
    (h : cs.head? = some x) : (replaceMatches matchAt cs).head? = some x := by
  obtain ⟨cs, rfl⟩ := List.head?_eq_some_iff.mp h
  cases hfound : matchAt (x :: cs) with
  | none =>
      rw [replaceMatches_skip hfound]
      rfl
  | some found =>
      obtain ⟨replacement, after⟩ := found
      rw [replaceMatches_match hshrinks hfound, List.head?_append, hreplaced _ _ _ hfound]
      rfl

end Matches

/-! ## The built-in passes -/

section Passes

variable {c : Char} {cs front behind needle : List Char}

theorem isPrefixOf?_eq_none_iff : needle.isPrefixOf? cs = none ↔ ¬ needle <+: cs := by
  rw [← Option.not_isSome_iff_eq_none, List.isSome_isPrefixOf?_eq_isPrefixOf,
    List.isPrefixOf_iff_prefix]

/-- A text is cut where the needle begins, if it begins nowhere before. -/
theorem breakAt?_behind (hne : needle ≠ [])
    (h : ∀ s, s ≠ [] → s <:+ front → ¬ needle <+: s ++ (needle ++ behind)) :
    breakAt? needle (front ++ (needle ++ behind)) = some (front, behind) := by
  induction front with
  | nil =>
      have hhere : needle.isPrefixOf? (needle ++ behind) = some behind :=
        List.isPrefixOf?_eq_some_iff_append_eq.mpr rfl
      obtain ⟨x, needle, rfl⟩ := List.exists_cons_of_ne_nil hne
      rw [List.nil_append, List.cons_append, breakAt?, ← List.cons_append, hhere]
  | cons c front ih =>
      have hnone : needle.isPrefixOf? (c :: (front ++ (needle ++ behind))) = none :=
        isPrefixOf?_eq_none_iff.mpr (h (c :: front) (List.cons_ne_nil _ _) (List.suffix_refl _))
      have hrest := ih fun s hs hsuffix => h s hs (hsuffix.trans (List.suffix_cons ..))
      rw [List.cons_append, breakAt?, hnone, hrest]
      rfl

/-- A pattern that a text does not hold is not in front of its end, if it could not begin there or
go on behind it. -/
theorem not_prefix_of_suffix (hin : ¬ needle <:+: front)
    (hends : (∀ c ∈ needle.dropLast, front.getLast? ≠ some c) ∨
      ∀ d ∈ needle.tail, behind.head? ≠ some d) :
    ∀ s, s ≠ [] → s <:+ front → ¬ needle <+: s ++ behind := by
  intro s hne hsuffix hstarts
  rcases List.prefix_or_prefix_of_prefix hstarts (List.prefix_append s behind) with
    hwithin | ⟨rest, rfl⟩
  · exact hin (hwithin.isInfix.trans hsuffix.isInfix)
  · cases rest with
    | nil =>
        rw [List.append_nil] at hin
        exact hin hsuffix.isInfix
    | cons d rest =>
        rcases hends with hlast | hhead
        · obtain ⟨before, rfl⟩ := hsuffix
          refine hlast (s.getLast hne) ?_ ?_
          · rw [List.dropLast_append_of_ne_nil (List.cons_ne_nil d rest)]
            exact List.mem_append_left _ (List.getLast_mem hne)
          · rw [List.getLast?_append_of_ne_nil _ hne, List.getLast?_eq_some_getLast hne]
        · obtain ⟨after, hafter⟩ := (List.prefix_append_right_inj s).mp hstarts
          refine hhead d ?_ ?_
          · rw [List.tail_append_of_ne_nil hne]
            exact List.mem_append_right _ (List.mem_cons_self ..)
          · rw [← hafter]
            rfl

theorem longComment?_eq_none (h : ¬ ['{', '{', '!'] <+: cs) : Rule.longComment? cs = none := by
  have hno : "\x7b\x7b!--".toList.isPrefixOf? cs = none := by
    rw [isPrefixOf?_eq_none_iff]
    exact fun hlong => h (List.IsPrefix.trans ⟨['-', '-'], rfl⟩ hlong)
  rw [Rule.longComment?, hno]
  rfl

theorem shortComment?_eq_none (h : ¬ ['{', '{', '!'] <+: cs) : Rule.shortComment? cs = none := by
  have hno : "\x7b\x7b!".toList.isPrefixOf? cs = none := isPrefixOf?_eq_none_iff.mpr h
  rw [Rule.shortComment?, hno]
  rfl

theorem tripleBraces?_eq_none (h : ¬ ['{', '{', '{'] <+: cs) : Rule.tripleBraces? cs = none := by
  have hno : "\x7b\x7b\x7b".toList.isPrefixOf? cs = none := isPrefixOf?_eq_none_iff.mpr h
  rw [Rule.tripleBraces?, hno]
  rfl

theorem openingTilde?_eq_none (h : ¬ ['{', '{', '~'] <+: cs.dropWhile isBlank) :
    Rule.openingTilde? cs = none := by
  have hno : "\x7b\x7b~".toList.isPrefixOf? (cs.dropWhile isBlank) = none :=
    isPrefixOf?_eq_none_iff.mpr h
  rw [Rule.openingTilde?, hno]
  rfl

theorem closingTilde?_eq_none (h : ¬ ['~', '}', '}'] <+: cs) : Rule.closingTilde? cs = none := by
  have hno : "~\x7d\x7d".toList.isPrefixOf? cs = none := isPrefixOf?_eq_none_iff.mpr h
  rw [Rule.closingTilde?, hno]
  rfl

theorem length_of_isPrefixOf? {rest : List Char} (h : needle.isPrefixOf? cs = some rest) :
    cs.length = needle.length + rest.length := by
  rw [← List.append_eq_of_isPrefixOf?_eq_some h, List.length_append]

theorem shrinks_longComment? : Shrinks Rule.longComment? := by
  intro cs replacement after h
  obtain ⟨body, hbody, hrest⟩ := Option.bind_eq_some_iff.mp h
  obtain ⟨⟨comment, behind⟩, hbreak, heq⟩ := Option.bind_eq_some_iff.mp hrest
  cases heq
  have hfound := congrArg List.length (leftmost_of_breakAt? hbreak).found
  have hlength := length_of_isPrefixOf? hbody
  simp only [List.length_append] at hfound
  have hfive : "\x7b\x7b!--".toList.length = 5 := rfl
  omega

theorem shrinks_tripleBraces? : Shrinks Rule.tripleBraces? := by
  intro cs replacement after h
  obtain ⟨body, hbody, hrest⟩ := Option.bind_eq_some_iff.mp h
  obtain ⟨⟨inner, behind⟩, hbreak, heq⟩ := Option.bind_eq_some_iff.mp hrest
  cases heq
  have hfound := congrArg List.length (leftmost_of_breakAt? hbreak).found
  have hlength := length_of_isPrefixOf? hbody
  simp only [List.length_append] at hfound
  have hthree : "\x7b\x7b\x7b".toList.length = 3 := rfl
  omega

theorem shrinks_openingTilde? : Shrinks Rule.openingTilde? := by
  intro cs replacement after h
  obtain ⟨body, hbody, heq⟩ := Option.bind_eq_some_iff.mp h
  cases heq
  have hlength := length_of_isPrefixOf? hbody
  have hdrop := (List.dropWhile_sublist isBlank (l := cs)).length_le
  have hthree : "\x7b\x7b~".toList.length = 3 := rfl
  omega

theorem shrinks_closingTilde? : Shrinks Rule.closingTilde? := by
  intro cs replacement after h
  obtain ⟨body, hbody, heq⟩ := Option.bind_eq_some_iff.mp h
  cases heq
  have hlength := length_of_isPrefixOf? hbody
  have hdrop := (List.dropWhile_sublist isBlank (l := body)).length_le
  have hthree : "~\x7d\x7d".toList.length = 3 := rfl
  omega

/-- A source without its comments. -/
def stripped (cs : List Char) : List Char :=
  replaceMatches Rule.shortComment? (replaceMatches Rule.longComment? cs)

/-- A source with its triple braces made double. -/
def collapsed (cs : List Char) : List Char := replaceMatches Rule.tripleBraces? cs

/-- A source without the tildes behind opening braces and the blanks before them. -/
def opened (cs : List Char) : List Char := replaceMatches Rule.openingTilde? cs

/-- A source without the tildes before closing braces and the blanks behind them. -/
def closed (cs : List Char) : List Char := replaceMatches Rule.closingTilde? cs

theorem stripped_self (h : ¬ ['{', '{', '!'] <:+: cs) : stripped cs = cs := by
  have hno : ∀ s, s ≠ [] → s <:+ cs → ¬ ['{', '{', '!'] <+: s :=
    fun s _ hsuffix hstarts => h (hstarts.isInfix.trans hsuffix.isInfix)
  have hlong : replaceMatches Rule.longComment? cs = cs :=
    replaceMatches_self fun s hs hsuffix => longComment?_eq_none (hno s hs hsuffix)
  rw [stripped, hlong]
  exact replaceMatches_self fun s hs hsuffix => shortComment?_eq_none (hno s hs hsuffix)

theorem collapsed_self (h : ¬ ['{', '{', '{'] <:+: cs) : collapsed cs = cs :=
  replaceMatches_self fun _ _ hsuffix => tripleBraces?_eq_none fun hstarts =>
    h (hstarts.isInfix.trans hsuffix.isInfix)

theorem opened_self (h : ¬ ['{', '{', '~'] <:+: cs) : opened cs = cs :=
  replaceMatches_self fun _ _ hsuffix => openingTilde?_eq_none fun hstarts =>
    h (hstarts.isInfix.trans ((List.dropWhile_suffix isBlank).trans hsuffix).isInfix)

theorem closed_self (h : ¬ ['~', '}', '}'] <:+: cs) : closed cs = cs :=
  replaceMatches_self fun _ _ hsuffix => closingTilde?_eq_none fun hstarts =>
    h (hstarts.isInfix.trans hsuffix.isInfix)

theorem not_infix_of_occursIn (h : occursIn needle cs = false) : ¬ needle <:+: cs := by
  rw [← occursIn_iff, h]
  exact Bool.false_ne_true

/-- A source after the built-in passes. -/
def passed (cs : List Char) : List Char := closed (opened (collapsed (stripped cs)))

/-- **The built-in rules are passes**, of which those that have nothing to do change nothing. -/
theorem applyAll_passed (source : String) :
    Rule.applyAll defaultRules source = String.ofList (passed source.toList) := by
  have hcomments : ∀ cs : List Char, Rule.apply cs .stripComments = stripped cs := by
    intro cs
    rw [Rule.apply]
    split
    · rfl
    · rename_i hidle
      rw [Bool.not_eq_true] at hidle
      exact (stripped_self (not_infix_of_occursIn hidle)).symm
  have htriple : ∀ cs : List Char, Rule.apply cs .collapseTripleBraces = collapsed cs := by
    intro cs
    rw [Rule.apply]
    split
    · rfl
    · rename_i hidle
      rw [Bool.not_eq_true] at hidle
      exact (collapsed_self (not_infix_of_occursIn hidle)).symm
  have htildes : ∀ cs : List Char, Rule.apply cs .controlWhiteSpace = closed (opened cs) := by
    intro cs
    rw [Rule.apply]
    split
    · rfl
    · rename_i hidle
      rw [Bool.not_eq_true, Rule.applies, Bool.or_eq_false_iff] at hidle
      rw [opened_self (not_infix_of_occursIn hidle.1),
        closed_self (not_infix_of_occursIn hidle.2)]
  rw [defaultRules_eq, Rule.applyAll, Rule.builtIn, List.foldl_cons, List.foldl_cons,
    List.foldl_cons, List.foldl_nil, hcomments, htriple, htildes, passed]

/-! ### Texts that are kept -/

/-- Comments are removed behind a text as they are without it. -/
theorem stripped_append (hfront : ¬ ['{', '{', '!'] <:+: front) (hlast : front.getLast? ≠ some '{')
    (behind : List Char) : stripped (front ++ behind) = front ++ stripped behind := by
  have hends : ∀ c ∈ ['{', '{', '!'].dropLast, front.getLast? ≠ some c := by simpa using hlast
  have hno : ∀ behind s, s ≠ [] → s <:+ front → ¬ ['{', '{', '!'] <+: s ++ behind :=
    fun _ => not_prefix_of_suffix hfront (.inl hends)
  have hlong : replaceMatches Rule.longComment? (front ++ behind) =
      front ++ replaceMatches Rule.longComment? behind :=
    replaceMatches_append fun s hs hsuffix => longComment?_eq_none (hno _ s hs hsuffix)
  rw [stripped, hlong]
  exact replaceMatches_append fun s hs hsuffix => shortComment?_eq_none (hno _ s hs hsuffix)

theorem collapsed_append (hfront : ¬ ['{', '{', '{'] <:+: front) (hlast : front.getLast? ≠ some '{')
    (behind : List Char) : collapsed (front ++ behind) = front ++ collapsed behind := by
  have hends : ∀ c ∈ ['{', '{', '{'].dropLast, front.getLast? ≠ some c := by simpa using hlast
  exact replaceMatches_append fun s hs hsuffix =>
    tripleBraces?_eq_none (not_prefix_of_suffix hfront (.inl hends) s hs hsuffix)

/-- Triple braces that are never closed are kept. -/
theorem collapsed_of_not_closed (h : ¬ ['}', '}', '}'] <:+: cs) : collapsed cs = cs := by
  refine replaceMatches_self fun s _ hsuffix => ?_
  rw [Rule.tripleBraces?]
  cases hbody : "\x7b\x7b\x7b".toList.isPrefixOf? s with
  | none => rfl
  | some body =>
      have hbody : body <:+ s := ⟨_, List.append_eq_of_isPrefixOf?_eq_some hbody⟩
      have hnone : breakAt? "\x7d\x7d\x7d".toList body = none :=
        breakAt?_eq_none_iff.mpr fun hin => h (hin.trans (hbody.trans hsuffix).isInfix)
      rw [Option.bind_eq_bind, Option.bind_some, hnone]
      rfl

theorem closed_append (hfront : ¬ ['~', '}', '}'] <:+: front)
    (hends : (∀ c ∈ ['~', '}'], front.getLast? ≠ some c) ∨ behind.head? ≠ some '}') :
    closed (front ++ behind) = front ++ closed behind := by
  have hends : (∀ c ∈ ['~', '}', '}'].dropLast, front.getLast? ≠ some c) ∨
      ∀ d ∈ ['~', '}', '}'].tail, behind.head? ≠ some d := by simpa using hends
  exact replaceMatches_append fun s hs hsuffix =>
    closingTilde?_eq_none (not_prefix_of_suffix hfront hends s hs hsuffix)

/-- **A tilde takes the blanks behind its braces.** -/
theorem closed_tilde (behind : List Char) :
    closed ('~' :: '}' :: '}' :: behind) = '}' :: '}' :: closed (behind.dropWhile isBlank) := by
  have hmatch : Rule.closingTilde? ('~' :: '}' :: '}' :: behind) =
      some (['}', '}'], behind.dropWhile isBlank) := rfl
  exact replaceMatches_match shrinks_closingTilde? hmatch

theorem closed_cons_of_ne (hc : c ≠ '~') (cs : List Char) : closed (c :: cs) = c :: closed cs := by
  refine replaceMatches_skip (closingTilde?_eq_none ?_)
  rw [List.cons_prefix_cons]
  exact fun h => hc h.1.symm

/-- Of what is inside a mustache, at most a tilde at the end is lost. -/
theorem closed_inside (hcs : '}' ∉ cs) (behind : List Char) : ∃ inside after,
    closed (cs ++ '}' :: '}' :: behind) = inside ++ '}' :: '}' :: after ∧ inside <+: cs := by
  induction cs with
  | nil =>
      refine ⟨[], closed behind, ?_, List.nil_prefix⟩
      rw [List.nil_append, List.nil_append, closed_cons_of_ne (by decide),
        closed_cons_of_ne (by decide)]
  | cons c cs ih =>
      rw [List.mem_cons, not_or] at hcs
      by_cases hend : c = '~' ∧ cs = []
      · obtain ⟨rfl, rfl⟩ := hend
        exact ⟨[], _, closed_tilde behind, List.nil_prefix⟩
      · obtain ⟨inside, after, hclosed, hstarts⟩ := ih hcs.2
        have hno : ¬ ['~', '}', '}'] <+: c :: (cs ++ '}' :: '}' :: behind) := by
          rw [List.cons_prefix_cons]
          rintro ⟨rfl, hbraces⟩
          cases cs with
          | nil => exact hend ⟨rfl, rfl⟩
          | cons d cs =>
              obtain ⟨rfl, -⟩ := List.cons_prefix_cons.mp hbraces
              exact hcs.2 (List.mem_cons_self ..)
        have hskip : closed (c :: (cs ++ '}' :: '}' :: behind)) =
            c :: closed (cs ++ '}' :: '}' :: behind) :=
          replaceMatches_skip (closingTilde?_eq_none hno)
        refine ⟨c :: inside, after, ?_, List.cons_prefix_cons.mpr ⟨rfl, hstarts⟩⟩
        rw [List.cons_append, hskip, hclosed, List.cons_append]

/-- What begins with a brace still does. -/
theorem head?_collapsed (h : cs.head? = some '{') : (collapsed cs).head? = some '{' := by
  refine head?_replaceMatches shrinks_tripleBraces? (fun cs replacement after hfound => ?_) h
  obtain ⟨body, -, hrest⟩ := Option.bind_eq_some_iff.mp hfound
  obtain ⟨⟨inner, behind⟩, -, heq⟩ := Option.bind_eq_some_iff.mp hrest
  cases heq
  rfl

theorem openingTilde?_eq_some {replacement after : List Char}
    (h : Rule.openingTilde? cs = some (replacement, after)) :
    replacement = ['{', '{'] ∧ after <:+ cs := by
  obtain ⟨body, hbody, heq⟩ := Option.bind_eq_some_iff.mp h
  cases heq
  have hsuffix : after <:+ cs.dropWhile isBlank :=
    ⟨_, List.append_eq_of_isPrefixOf?_eq_some hbody⟩
  exact ⟨rfl, hsuffix.trans (List.dropWhile_suffix _)⟩

theorem head?_opened (h : cs.head? = some '{') : (opened cs).head? = some '{' := by
  refine head?_replaceMatches shrinks_openingTilde? (fun cs replacement after hfound => ?_) h
  rw [(openingTilde?_eq_some hfound).1]
  rfl

end Passes

/-! ## Opening tildes -/

section Opening

variable {c x : Char} {cs front behind : List Char}

theorem opened_cons_of_ne (hblank : isBlank c = false) (hc : c ≠ '{') (cs : List Char) :
    opened (c :: cs) = c :: opened cs := by
  refine replaceMatches_skip (openingTilde?_eq_none ?_)
  rw [List.dropWhile_cons_of_neg (by rw [hblank]; decide), List.cons_prefix_cons]
  exact fun h => hc h.1.symm

/-- A needle without a character is found in front of it or not at all. -/
theorem isPrefixOf?_barrier {needle : List Char} (hx : x ∉ needle) (cs behind : List Char) :
    needle.isPrefixOf? (cs ++ x :: behind) =
      (needle.isPrefixOf? cs).map (· ++ x :: behind) := by
  induction needle generalizing cs with
  | nil => rfl
  | cons y needle ih =>
      rw [List.mem_cons, not_or] at hx
      cases cs with
      | nil =>
          have hyx : (y == x) = false := by simpa using Ne.symm hx.1
          show (if (y == x) = true then needle.isPrefixOf? behind else none) = none
          rw [hyx, if_neg Bool.false_ne_true]
      | cons z cs =>
          rw [List.cons_append, List.isPrefixOf?, List.isPrefixOf?]
          split
          · exact ih hx.2 cs
          · rfl

theorem dropWhile_append_cons (hblank : isBlank x = false) (cs behind : List Char) :
    (cs ++ x :: behind).dropWhile isBlank = cs.dropWhile isBlank ++ x :: behind := by
  rw [List.dropWhile_append]
  split
  · rename_i hnil
    rw [List.isEmpty_iff.mp hnil, List.dropWhile_cons_of_neg (by rw [hblank]; decide)]
    rfl
  · rfl

theorem openingTilde?_barrier (hblank : isBlank x = false) (hx : x ∉ ['{', '{', '~'])
    (cs behind : List Char) :
    Rule.openingTilde? (cs ++ x :: behind) =
      (Rule.openingTilde? cs).map fun found => (found.1, found.2 ++ x :: behind) := by
  have hneedle : "\x7b\x7b~".toList.isPrefixOf? (cs.dropWhile isBlank ++ x :: behind) =
      ("\x7b\x7b~".toList.isPrefixOf? (cs.dropWhile isBlank)).map (· ++ x :: behind) :=
    isPrefixOf?_barrier hx _ _
  rw [Rule.openingTilde?, Rule.openingTilde?, dropWhile_append_cons hblank, hneedle]
  cases "\x7b\x7b~".toList.isPrefixOf? (cs.dropWhile isBlank) <;> rfl

/-- **Nothing is matched across a character that is no part of a match.** -/
theorem opened_barrier (hblank : isBlank x = false) (hx : x ∉ ['{', '{', '~'])
    (cs behind : List Char) : opened (cs ++ x :: behind) = opened cs ++ x :: opened behind := by
  have hbrace : x ≠ '{' := by
    rintro rfl
    exact hx (List.mem_cons_self ..)
  induction hn : cs.length using Nat.strong_induction_on generalizing cs with
  | _ n ih =>
      subst hn
      cases cs with
      | nil => exact opened_cons_of_ne hblank hbrace behind
      | cons c cs =>
          have hmatch := openingTilde?_barrier hblank hx (c :: cs) behind
          cases hfound : Rule.openingTilde? (c :: cs) with
          | none =>
              rw [hfound] at hmatch
              have hskip : opened (c :: (cs ++ x :: behind)) = c :: opened (cs ++ x :: behind) :=
                replaceMatches_skip hmatch
              have hskip' : opened (c :: cs) = c :: opened cs := replaceMatches_skip hfound
              rw [List.cons_append, hskip, hskip', ih cs.length (Nat.lt_succ_self _) cs rfl,
                List.cons_append]
          | some found =>
              obtain ⟨replacement, after⟩ := found
              rw [hfound] at hmatch
              have hshrinks := shrinks_openingTilde? _ _ _ hfound
              have hstep : opened (c :: (cs ++ x :: behind)) =
                  replacement ++ opened (after ++ x :: behind) :=
                replaceMatches_match shrinks_openingTilde? hmatch
              have hstep' : opened (c :: cs) = replacement ++ opened after :=
                replaceMatches_match shrinks_openingTilde? hfound
              rw [List.cons_append, hstep, hstep', ih after.length hshrinks after rfl,
                List.append_assoc]

/-- A text without opening braces matches with the blanks at its end only. -/
theorem openingTilde?_of_not_blanks (hfront : '{' ∉ front) (h : ¬ Blanks front)
    (behind : List Char) : Rule.openingTilde? (front ++ behind) = none := by
  have hne : front.dropWhile isBlank ≠ [] := fun hnil => h (List.dropWhile_eq_nil_iff.mp hnil)
  obtain ⟨c, rest, hrest⟩ := List.exists_cons_of_ne_nil hne
  refine openingTilde?_eq_none ?_
  rw [List.dropWhile_append, hrest, List.isEmpty_cons, if_neg Bool.false_ne_true, List.cons_append,
    List.cons_prefix_cons]
  intro hstarts
  have hmem : c ∈ front := (List.dropWhile_sublist isBlank).subset (hrest ▸ List.mem_cons_self ..)
  exact hfront (hstarts.1 ▸ hmem)

theorem dropTrailing_cons_of_not_blanks (h : ¬ Blanks (c :: cs)) :
    dropTrailing isBlank (c :: cs) = c :: dropTrailing isBlank cs := by
  by_cases hcs : Blanks cs
  · -- only the first character is kept
    have hc : isBlank c = false := by
      rw [← Bool.not_eq_true]
      exact fun hc => h (List.forall_mem_cons.mpr ⟨hc, hcs⟩)
    have hnil : cs.reverse.dropWhile isBlank = [] :=
      List.dropWhile_eq_nil_iff.mpr fun x hx => hcs x (List.mem_reverse.mp hx)
    rw [dropTrailing, dropTrailing, List.reverse_cons, List.dropWhile_append, hnil,
      List.isEmpty_nil, if_pos rfl, List.dropWhile_cons_of_neg (by rw [hc]; decide)]
    rfl
  · exact dropTrailing_append_of_not_blanks hcs [c]

theorem dropTrailing_of_blanks (h : Blanks cs) : dropTrailing isBlank cs = [] := by
  rw [dropTrailing, List.dropWhile_eq_nil_iff.mpr fun x hx => h x (List.mem_reverse.mp hx)]
  rfl

theorem dropTrailing_subset (cs : List Char) : dropTrailing isBlank cs ⊆ cs :=
  (List.rdropWhile_prefix isBlank cs).subset

theorem dropWhile_dropTrailing (cs : List Char) :
    (dropTrailing isBlank cs).dropWhile isBlank = dropTrailing isBlank (cs.dropWhile isBlank) := by
  induction cs with
  | nil => rfl
  | cons c cs ih =>
      by_cases hblanks : Blanks (c :: cs)
      · rw [dropTrailing_of_blanks hblanks, List.dropWhile_eq_nil_iff.mpr hblanks]
        rfl
      · rw [dropTrailing_cons_of_not_blanks hblanks]
        by_cases hc : isBlank c = true
        · rw [List.dropWhile_cons_of_pos hc, List.dropWhile_cons_of_pos hc, ih]
        · rw [List.dropWhile_cons_of_neg hc, List.dropWhile_cons_of_neg hc,
            dropTrailing_cons_of_not_blanks hblanks]

/-- **A tilde takes the blanks in front of its braces.** -/
theorem opened_tilde (hfront : '{' ∉ front) (behind : List Char) :
    opened (front ++ '{' :: '{' :: '~' :: behind) =
      dropTrailing isBlank front ++ '{' :: '{' :: opened behind := by
  induction front with
  | nil =>
      have hmatch : Rule.openingTilde? ('{' :: '{' :: '~' :: behind) = some (['{', '{'], behind) :=
        rfl
      exact replaceMatches_match shrinks_openingTilde? hmatch
  | cons c front ih =>
      by_cases hblanks : Blanks (c :: front)
      · have hmatch : Rule.openingTilde? (c :: (front ++ '{' :: '{' :: '~' :: behind)) =
            some (['{', '{'], behind) := by
          have hdrop : (c :: (front ++ '{' :: '{' :: '~' :: behind)).dropWhile isBlank =
              '{' :: '{' :: '~' :: behind := by
            rw [← List.cons_append, List.dropWhile_append_of_pos hblanks]
            rfl
          rw [Rule.openingTilde?, hdrop]
          rfl
        rw [dropTrailing_of_blanks hblanks]
        exact replaceMatches_match shrinks_openingTilde? hmatch
      · have hskip : opened (c :: (front ++ '{' :: '{' :: '~' :: behind)) =
            c :: opened (front ++ '{' :: '{' :: '~' :: behind) :=
          replaceMatches_skip (openingTilde?_of_not_blanks hfront hblanks _)
        rw [List.cons_append, hskip, ih fun hmem => hfront (List.mem_cons_of_mem _ hmem),
          dropTrailing_cons_of_not_blanks hblanks, List.cons_append]

/-- Other braces leave the text in front of them as it is. -/
theorem opened_front (hfront : '{' ∉ front) (hbehind : ¬ ['{', '{', '~'] <+: behind)
    (hstart : ∀ c, behind.head? = some c → isBlank c = false) :
    opened (front ++ behind) = front ++ opened behind := by
  refine replaceMatches_append fun s hs hsuffix => ?_
  have hs' : '{' ∉ s := fun hmem => hfront (hsuffix.subset hmem)
  by_cases hblanks : Blanks s
  · refine openingTilde?_eq_none ?_
    have hdrop : behind.dropWhile isBlank = behind := by
      cases behind with
      | nil => rfl
      | cons c behind => exact List.dropWhile_cons_of_neg (by rw [hstart c rfl]; decide)
    rwa [List.dropWhile_append_of_pos hblanks, hdrop]
  · exact openingTilde?_of_not_blanks hs' hblanks behind

/-- Opening braces without a tilde are kept. -/
theorem opened_braces (hbrace : cs.head? ≠ some '{') (htilde : cs.head? ≠ some '~') :
    opened ('{' :: '{' :: cs) = '{' :: '{' :: opened cs := by
  have hblank : isBlank '{' = false := by decide
  have hkeep : ∀ rest : List Char, ¬ ['{', '{', '~'] <+: '{' :: rest →
      opened ('{' :: rest) = '{' :: opened rest := by
    intro rest hno
    refine replaceMatches_skip (openingTilde?_eq_none ?_)
    rwa [List.dropWhile_cons_of_neg (by rw [hblank]; decide)]
  rw [hkeep _ ?_, hkeep _ ?_]
  · rw [List.cons_prefix_cons]
    intro h
    obtain ⟨rest, rfl⟩ := h.2
    exact hbrace rfl
  · rw [List.cons_prefix_cons, List.cons_prefix_cons]
    intro h
    obtain ⟨rest, rfl⟩ := h.2.2
    exact htilde rfl

/-- What is in front stays in front, unless it is a brace. -/
theorem prefix_of_opened {pattern : List Char} (hpattern : '{' ∉ pattern)
    (h : pattern <+: opened cs) : pattern <+: cs := by
  induction pattern generalizing cs with
  | nil => exact List.nil_prefix
  | cons x pattern ih =>
      rw [List.mem_cons, not_or] at hpattern
      cases cs with
      | nil =>
          obtain ⟨rest, hrest⟩ := h
          cases hrest
      | cons c cs =>
          cases hfound : Rule.openingTilde? (c :: cs) with
          | none =>
              have hskip : opened (c :: cs) = c :: opened cs := replaceMatches_skip hfound
              rw [hskip, List.cons_prefix_cons] at h
              rw [List.cons_prefix_cons]
              exact ⟨h.1, ih hpattern.2 h.2⟩
          | some found =>
              obtain ⟨replacement, after⟩ := found
              have hstep : opened (c :: cs) = replacement ++ opened after :=
                replaceMatches_match shrinks_openingTilde? hfound
              rw [hstep, (openingTilde?_eq_some hfound).1] at h
              exact absurd (List.cons_prefix_cons.mp h).1.symm hpattern.1

/-- What begins with no brace is not made by the pass. -/
theorem infix_of_opened {pattern : List Char} (hpattern : '{' ∉ pattern)
    (h : pattern <:+: opened cs) : pattern <:+: cs := by
  induction hn : cs.length using Nat.strong_induction_on generalizing cs with
  | _ n ih =>
      subst hn
      cases cs with
      | nil => exact h
      | cons c cs =>
          cases hfound : Rule.openingTilde? (c :: cs) with
          | none =>
              have hskip : opened (c :: cs) = c :: opened cs := replaceMatches_skip hfound
              rw [hskip, List.infix_cons_iff, ← hskip] at h
              rcases h with h | h
              · exact (prefix_of_opened hpattern h).isInfix
              · exact List.infix_cons (ih cs.length (Nat.lt_succ_self _) h rfl)
          | some found =>
              obtain ⟨replacement, after⟩ := found
              have hshrinks := shrinks_openingTilde? _ _ _ hfound
              have hstep : opened (c :: cs) = replacement ++ opened after :=
                replaceMatches_match shrinks_openingTilde? hfound
              obtain ⟨rfl, hafter⟩ := openingTilde?_eq_some hfound
              rw [hstep] at h
              cases pattern with
              | nil => exact List.nil_infix
              | cons x pattern =>
                  have hx : x ∉ ['{', '{'] := by
                    intro hmem
                    obtain rfl : x = '{' := by simpa using hmem
                    exact hpattern (List.mem_cons_self ..)
                  have hbehind := ih after.length hshrinks (infix_of_append _ hx h) rfl
                  exact hbehind.trans hafter.isInfix

end Opening

end Formwork.Proofs
