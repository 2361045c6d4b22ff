import Formwork.Proofs.Template.PlainText
import Formwork.Proofs.Template.Interpreter
import Formwork.Template.Rule

/-!
# Where a source is cut

A source is written from a text and, for each mustache, what is inside the braces and the
text behind them (`written`). It is cut at these places again, and no lexical rule finds
anything to do in it, as long as the braces of the mustaches are the only ones that can be
taken for a mark (`Clear`, `Bare`): a text may hold single braces and pairs of closing
ones, and any mark of block templates.

Each mark is found by where it may begin. A pair of opening braces begins neither inside a
text nor at its end, so it is that of a mustache, and a tilde before closing braces would
have to end a text or what is inside a mustache.
-/

namespace Formwork.Proofs

open Formwork Formwork.Template Formwork.Text

/-- A mustache for a path, and the text behind it. -/
structure Stretch where
  content : List Char
  path : Path
  text : String

/-- The source of a text and the mustaches behind it. -/
def written (first : String) : List Stretch → List Char
  | [] => first.toList
  | s :: rest =>
    first.toList ++ '{' :: '{' :: (s.content ++ '}' :: '}' :: written s.text rest)

/-- The text holds nothing that could be taken for a part of a mustache. -/
structure Clear (cs : List Char) : Prop where
  opening : ¬ ['{', '{'] <:+: cs
  tilde : ¬ ['~', '}', '}'] <:+: cs
  start : cs.head? ≠ some '}'
  ending : cs.getLast? ≠ some '{'

/-- What is inside a mustache holds no brace, and is neither a comment nor marked with a tilde. -/
structure Bare (cs : List Char) : Prop where
  opening : '{' ∉ cs
  closing : '}' ∉ cs
  comment : cs.head? ≠ some '!'
  start : cs.head? ≠ some '~'
  ending : cs.getLast? ≠ some '~'

/-- The texts and mustaches of a source are kept apart. -/
structure Apart (first : String) (rest : List Stretch) : Prop where
  first : Clear first.toList
  rest : ∀ s ∈ rest, Bare s.content ∧ Clear s.text.toList

theorem Apart.tail {first : String} {s : Stretch} {rest : List Stretch}
    (h : Apart first (s :: rest)) : Apart s.text rest where
  first := (h.rest s (List.mem_cons_self ..)).2
  rest := fun s' hs' => h.rest s' (List.mem_cons_of_mem _ hs')

/-! ## Marks -/

section Marks

variable {first : String} {rest : List Stretch}

/-- A pattern in two texts put together is in one of them, or it begins in the first and ends in the
second. -/
theorem infix_append_cases {pattern front behind : List Char}
    (h : pattern <:+: front ++ behind) :
    pattern <:+: front ∨ pattern <:+: behind
      ∨ ∃ c ∈ pattern.dropLast, ∃ d ∈ pattern.tail,
          front.getLast? = some c ∧ behind.head? = some d := by
  rcases List.infix_append_iff_ne_nil.mp h with
    h | h | ⟨l₁, l₂, hne₁, hne₂, rfl, hsuffix, hprefix⟩
  · exact .inl h
  · exact .inr (.inl h)
  · obtain ⟨d, l₂, rfl⟩ := List.exists_cons_of_ne_nil hne₂
    obtain ⟨before, rfl⟩ := hsuffix
    obtain ⟨after, rfl⟩ := hprefix
    refine .inr (.inr ⟨l₁.getLast hne₁, ?_, d, ?_, ?_, rfl⟩)
    · rw [List.dropLast_append_of_ne_nil hne₂]
      exact List.mem_append_left _ (List.getLast_mem hne₁)
    · rw [List.tail_append_of_ne_nil hne₁]
      exact List.mem_append_right _ (List.mem_cons_self ..)
    · rw [List.getLast?_append_of_ne_nil _ hne₁, List.getLast?_eq_some_getLast hne₁]

/-- What begins with a character that a text lacks is behind the text. -/
theorem infix_of_append {x : Char} {pattern behind : List Char} (front : List Char)
    (hx : x ∉ front) (h : x :: pattern <:+: front ++ behind) : x :: pattern <:+: behind := by
  induction front with
  | nil => exact h
  | cons c front ih =>
      rw [List.mem_cons, not_or] at hx
      rw [List.cons_append, List.infix_cons_iff] at h
      rcases h with ⟨after, heq⟩ | h
      · exact absurd (List.cons.inj heq).1 hx.1
      · exact ih hx.2 h

theorem head?_ne_of_not_mem {x : Char} {cs : List Char} (h : x ∉ cs) : cs.head? ≠ some x :=
  fun heq => h (List.mem_of_mem_head? heq)

/-- Opening braces are followed by what is inside a mustache. -/
theorem not_opening_infix (h : Apart first rest) {x : Char} (hx : x ≠ '}')
    (hcontent : ∀ s ∈ rest, s.content.head? ≠ some x) :
    ¬ ['{', '{', x] <:+: written first rest := by
  have hpair : ['{', '{'] <:+: ['{', '{', x] := (List.prefix_append ['{', '{'] [x]).isInfix
  induction rest generalizing first with
  | nil => exact fun hin => h.first.opening (hpair.trans hin)
  | cons s rest ih =>
      have hbare : Bare s.content := (h.rest s (List.mem_cons_self ..)).1
      have hinside : ∀ c : Char, c ≠ '}' → s.content.head? ≠ some c →
          (s.content ++ '}' :: '}' :: written s.text rest).head? ≠ some c := by
        intro c hc hne
        cases hs : s.content with
        | nil => simpa using hc.symm
        | cons c' cs => rwa [hs] at hne
      intro hin
      rw [written] at hin
      rcases infix_append_cases hin with hin | hin | ⟨c, hc, -, -, hlast, -⟩
      · exact h.first.opening (hpair.trans hin)
      · rcases List.infix_cons_iff.mp hin with ⟨after, heq⟩ | hin
        · -- at the mustache: what is inside would begin with the character
          have htail := (List.cons.inj (List.cons.inj heq).2).2
          refine hinside x hx (hcontent s (List.mem_cons_self ..)) ?_
          rw [← htail]
          rfl
        · rcases List.infix_cons_iff.mp hin with ⟨after, heq⟩ | hin
          · -- one brace on: what is inside would begin with a brace
            have htail := (List.cons.inj heq).2
            refine hinside '{' (by decide) (head?_ne_of_not_mem hbare.opening) ?_
            rw [← htail]
            rfl
          · have hbehind := infix_of_append s.content hbare.opening hin
            have hrest := infix_of_append ['}', '}'] (by decide) hbehind
            exact ih h.tail (fun s' hs' => hcontent s' (List.mem_cons_of_mem _ hs')) hrest
      · have hc : c = '{' := by simpa using hc
        exact h.first.ending (hc ▸ hlast)

/-- No tilde stands before closing braces. -/
theorem not_tilde_infix (h : Apart first rest) : ¬ ['~', '}', '}'] <:+: written first rest := by
  induction rest generalizing first with
  | nil => exact h.first.tilde
  | cons s rest ih =>
      have hbare : Bare s.content := (h.rest s (List.mem_cons_self ..)).1
      intro hin
      rw [written] at hin
      rcases infix_append_cases hin with hin | hin | ⟨-, -, d, hd, -, hhead⟩
      · exact h.first.tilde hin
      · have hinside := infix_of_append ['{', '{'] (by decide) hin
        rcases infix_append_cases hinside with hin | hin | ⟨c, hc, -, -, hlast, -⟩
        · exact hbare.closing (hin.subset (by simp))
        · exact ih h.tail (infix_of_append ['}', '}'] (by decide) hin)
        · rcases List.mem_pair.mp hc with rfl | rfl
          · exact hbare.ending hlast
          · exact hbare.closing (List.mem_of_mem_getLast? hlast)
      · have hd : d = '}' := by simpa using hd
        rw [hd] at hhead
        cases hhead

/-- The built-in rules find nothing to do. -/
theorem builtIn_idle (h : Apart first rest) :
    ∀ r ∈ Rule.builtIn, r.applies (written first rest) = false := by
  have hopening : ∀ x : Char, x ≠ '}' → (∀ s ∈ rest, s.content.head? ≠ some x) →
      occursIn ['{', '{', x] (written first rest) = false := by
    intro x hx hcontent
    rw [Bool.eq_false_iff, ne_eq, occursIn_iff]
    exact not_opening_infix h hx hcontent
  have htilde : occursIn ['~', '}', '}'] (written first rest) = false := by
    rw [Bool.eq_false_iff, ne_eq, occursIn_iff]
    exact not_tilde_infix h
  have hbare : ∀ s ∈ rest, Bare s.content := fun s hs => (h.rest s hs).1
  intro r hr
  simp only [Rule.builtIn, List.mem_cons, List.not_mem_nil, or_false] at hr
  rcases hr with rfl | rfl | rfl
  · exact hopening '!' (by decide) fun s hs => (hbare s hs).comment
  · exact hopening '{' (by decide) fun s hs => head?_ne_of_not_mem (hbare s hs).opening
  · have hopened := hopening '~' (by decide) fun s hs => (hbare s hs).start
    show (occursIn ['{', '{', '~'] _ || occursIn ['~', '}', '}'] _) = false
    rw [hopened, htilde]
    rfl

end Marks

/-! ## Pieces -/

/-- The texts and mustaches of a source. -/
def stretchPieces (first : String) : List Stretch → List Piece
  | [] => [.text first.toList]
  | s :: rest => .text first.toList :: .mustache s.content :: stretchPieces s.text rest

/-- A text is cut at the first pair of a character that neither is in what comes before nor could
begin at its end. -/
theorem breakAt?_pair {x : Char} {front : List Char} (hin : ¬ [x, x] <:+: front)
    (hlast : front.getLast? ≠ some x) (behind : List Char) :
    breakAt? [x, x] (front ++ x :: x :: behind) = some (front, behind) := by
  induction front with
  | nil => simp [breakAt?, List.isPrefixOf?]
  | cons c front ih =>
      have hnot : [x, x].isPrefixOf? (c :: (front ++ x :: x :: behind)) = none := by
        rw [← Option.not_isSome_iff_eq_none, List.isSome_isPrefixOf?_eq_isPrefixOf,
          List.isPrefixOf_iff_prefix]
        rintro ⟨after, heq⟩
        obtain ⟨rfl, htail⟩ := List.cons.inj heq
        cases front with
        | nil => exact hlast rfl
        | cons d front =>
            obtain ⟨rfl, -⟩ := List.cons.inj htail
            exact hin ⟨[], front, rfl⟩
      have hlast' : front.getLast? ≠ some x := by
        cases front with
        | nil => exact (Option.some_ne_none x).symm
        | cons d front => rwa [List.getLast?_cons_cons] at hlast
      have hrest := ih (fun h => hin (List.infix_cons h)) hlast'
      rw [List.cons_append, breakAt?, hnot, hrest]
      rfl

theorem length_written (first : String) (rest : List Stretch) :
    rest.length ≤ (written first rest).length := by
  induction rest generalizing first with
  | nil => exact Nat.zero_le _
  | cons s rest ih =>
      have := ih s.text
      simp only [written, List.length_append, List.length_cons]
      omega

/-- **A source is cut into the texts and mustaches that it is written from.** -/
theorem pieces_written {first : String} {rest : List Stretch} (h : Apart first rest) :
    pieces (written first rest) = stretchPieces first rest := by
  have hgo : ∀ fuel : Nat, rest.length ≤ fuel →
      pieces.go fuel (written first rest) = stretchPieces first rest := by
    induction rest generalizing first with
    | nil =>
        intro fuel _
        have hnone : breakAt? "\x7b\x7b".toList first.toList = none := by
          rw [← Option.not_isSome_iff_eq_none]
          exact fun hin => h.first.opening (occursIn_iff.mp hin)
        cases fuel with
        | zero => rfl
        | succ fuel =>
            rw [written, pieces.go, hnone]
            rfl
    | cons s rest ih =>
        intro fuel hfuel
        have hbare : Bare s.content := (h.rest s (List.mem_cons_self ..)).1
        have hopening : breakAt? "\x7b\x7b".toList (written first (s :: rest)) =
            some (first.toList, s.content ++ '}' :: '}' :: written s.text rest) :=
          breakAt?_pair h.first.opening h.first.ending _
        have hclosing : breakAt? "\x7d\x7d".toList
            (s.content ++ '}' :: '}' :: written s.text rest) =
              some (s.content, written s.text rest) :=
          breakAt?_pair (fun hin => hbare.closing (hin.subset (by simp)))
            (fun hlast => hbare.closing (List.mem_of_mem_getLast? hlast)) _
        cases fuel with
        | zero => cases hfuel
        | succ fuel =>
            have hrest := ih h.tail fuel (Nat.le_of_succ_le_succ hfuel)
            rw [pieces.go, hopening]
            dsimp only
            rw [hclosing]
            dsimp only
            rw [hrest]
            rfl
  exact hgo _ (length_written first rest)

end Formwork.Proofs
