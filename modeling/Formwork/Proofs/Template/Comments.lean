import Formwork.Proofs.Template.Fronts

/-!
# Comments

A comment up to its own end mark is removed by the first rule (`stripped_longComment`), whatever is
in it. With a tilde inside its opening braces it is not found by that rule: it loses its tildes and
the blanks on both sides, and what is left is a mustache that gives no tag (`passed_tilded`). Until
then the other rules go over what is in it, and the mustache ends at its first closing braces, so
the comment is gone as a whole only if nothing in it is taken for a part of another mustache
(`SelfContained`).
-/

namespace Formwork.Proofs

open Formwork Formwork.Template Formwork.Text

/-! ## Comments -/

/-- A comment up to its own end mark. -/
def longComment (comment : List Char) : List Char :=
  ['{', '{', '!', '-', '-'] ++ (comment ++ ['-', '-', '}', '}'])

/-- A comment with tildes inside its braces. -/
def tildedComment (comment : List Char) : List Char :=
  ['{', '{', '~', '!', '-', '-'] ++ (comment ++ ['-', '-', '~', '}', '}'])

/-- Nothing in the comment is taken for a part of another mustache of the source. -/
structure SelfContained (rest comment : List Char) : Prop where
  closing : ¬ ['}', '}'] <:+: comment
  mark : ¬ ['{', '{', '!'] <:+: comment
  triple : ['{', '{', '{'] <:+: comment → ¬ ['}', '}', '}'] <:+: stripped rest

section Stripping

variable {front comment : List Char}

/-- The end mark of a comment does not overlap itself. -/
theorem end_mark_apart (hcomment : ¬ ['-', '-', '}', '}'] <:+: comment) (behind : List Char) :
    ∀ s, s ≠ [] → s <:+ comment →
      ¬ ['-', '-', '}', '}'] <+: s ++ (['-', '-', '}', '}'] ++ behind) := by
  intro s hne hsuffix hstarts
  match s with
  | [] => exact hne rfl
  | [_] => simp at hstarts
  | [_, _] => simp at hstarts
  | [_, _, _] => simp at hstarts
  | a :: b :: c :: d :: s =>
      simp only [List.cons_append, List.cons_prefix_cons] at hstarts
      obtain ⟨rfl, rfl, rfl, rfl, -⟩ := hstarts
      have hin : ['-', '-', '}', '}'] <+: '-' :: '-' :: '}' :: '}' :: s := ⟨s, rfl⟩
      exact hcomment (hin.isInfix.trans hsuffix.isInfix)

/-- **A long comment is removed**, whatever is in it. -/
theorem stripped_longComment (hfront : '{' ∉ front)
    (hcomment : ¬ ['-', '-', '}', '}'] <:+: comment) (rest : List Char) :
    stripped (front ++ (longComment comment ++ rest)) = stripped (front ++ rest) := by
  have hskip : ∀ cs, replaceMatches Rule.longComment? (front ++ cs) =
      front ++ replaceMatches Rule.longComment? cs := by
    intro cs
    refine replaceMatches_append fun s hs hsuffix => longComment?_eq_none ?_
    refine not_prefix_of_suffix (fun hin => hfront (hin.subset (List.mem_cons_self ..))) (.inl ?_)
      s hs hsuffix
    intro c hc hlast
    obtain rfl : c = '{' := by simpa using hc
    exact hfront (List.mem_of_mem_getLast? hlast)
  have hbreak : breakAt? "--\x7d\x7d".toList (comment ++ (['-', '-', '}', '}'] ++ rest)) =
      some (comment, rest) :=
    breakAt?_behind (List.cons_ne_nil _ _) (end_mark_apart hcomment rest)
  have hmatch : Rule.longComment? (longComment comment ++ rest) = some ([], rest) := by
    have hbody : "\x7b\x7b!--".toList.isPrefixOf? (longComment comment ++ rest) =
        some (comment ++ (['-', '-', '}', '}'] ++ rest)) :=
      List.isPrefixOf?_eq_some_iff_append_eq.mpr (by simp [longComment])
    rw [Rule.longComment?, hbody, Option.bind_eq_bind, Option.bind_some, hbreak]
    rfl
  have hremoved : replaceMatches Rule.longComment? (longComment comment ++ rest) =
      replaceMatches Rule.longComment? rest :=
    replaceMatches_match shrinks_longComment? hmatch
  rw [stripped, stripped, hskip, hskip, hremoved]

/-- **A template with a long comment is the one without it.** -/
theorem render_longComment (hfront : '{' ∉ front)
    (hcomment : ¬ ['-', '-', '}', '}'] <:+: comment) (rest : List Char) (context : Members) :
    render defaultRules (String.ofList (front ++ (longComment comment ++ rest))) context =
      render defaultRules (String.ofList (front ++ rest)) context := by
  have hpassed : passed (front ++ (longComment comment ++ rest)) = passed (front ++ rest) := by
    rw [passed, passed, stripped_longComment hfront hcomment]
  rw [render_eq_shownTags, render_eq_shownTags, applyAll_passed, applyAll_passed]
  simp only [String.toList_ofList]
  rw [hpassed]

end Stripping

section Tildes

variable {front behind comment rest cs text : List Char}

/-- The only opening braces of a text and a comment behind it are those of the comment. -/
theorem not_opening_tilded {x : Char} (hfront : '{' ∉ front) (hbehind : '{' ∉ behind)
    (hx : x ≠ '~') (hdash : x ≠ '-') (hcomment : ¬ ['{', '{', x] <:+: comment) :
    ¬ ['{', '{', x] <:+: front ++ (tildedComment comment ++ behind) := by
  intro hin
  have hcs : tildedComment comment ++ behind = '{' :: '{' ::
      (['~', '!', '-', '-'] ++ (comment ++ '-' :: '-' :: '~' :: '}' :: '}' :: behind)) := by
    simp [tildedComment]
  have hown := infix_of_append front hfront hin
  rw [hcs, List.infix_cons_iff, List.infix_cons_iff] at hown
  rcases hown with hhere | hhere | hlater
  · -- what is behind the braces of the comment is a tilde
    simp only [List.cons_append, List.cons_prefix_cons] at hhere
    exact hx hhere.2.2.1
  · simp at hhere
  · have hinside := infix_of_append ['~', '!', '-', '-'] (by decide) hlater
    rcases infix_append_cases hinside with hin | hin | ⟨-, -, d, hd, -, hhead⟩
    · exact hcomment hin
    · have hmem : '{' ∈ '-' :: '-' :: '~' :: '}' :: '}' :: behind :=
        hin.subset (List.mem_cons_self ..)
      simp [hbehind] at hmem
    · obtain rfl : '-' = d := Option.some.inj hhead
      simp [hdash.symm] at hd

/-- The only closing braces are those of the comment as well. -/
theorem not_triple_tilded (hfront : '}' ∉ front) (hbehind : '}' ∉ behind)
    (hcomment : ¬ ['}', '}'] <:+: comment) :
    ¬ ['}', '}', '}'] <:+: front ++ (tildedComment comment ++ behind) := by
  intro hin
  have hcs : tildedComment comment ++ behind =
      ['{', '{', '~', '!', '-', '-'] ++ (comment ++ '-' :: '-' :: '~' :: '}' :: '}' :: behind) := by
    simp [tildedComment]
  have hown := infix_of_append front hfront hin
  rw [hcs] at hown
  have hinside := infix_of_append _ (by decide) hown
  rcases infix_append_cases hinside with hin | hin | ⟨-, -, d, hd, -, hhead⟩
  · exact hcomment ((List.prefix_append ['}', '}'] ['}']).isInfix.trans hin)
  · have hend := infix_of_append ['-', '-', '~'] (by decide) hin
    rw [List.infix_cons_iff, List.infix_cons_iff] at hend
    rcases hend with ⟨after, heq⟩ | ⟨after, heq⟩ | hlater
    · obtain rfl := (List.cons.inj (List.cons.inj heq).2).2
      exact hbehind (List.mem_cons_self ..)
    · obtain rfl := (List.cons.inj heq).2
      exact hbehind (List.mem_cons_self ..)
    · exact hbehind (hlater.subset (List.mem_cons_self ..))
  · obtain rfl : '-' = d := Option.some.inj hhead
    simp at hd

/-- What a text and a comment end with is no opening brace. -/
theorem getLast?_tilded (hbehind : '{' ∉ behind) :
    (front ++ (tildedComment comment ++ behind)).getLast? ≠ some '{' := by
  have hcs : front ++ (tildedComment comment ++ behind) =
      (front ++ (['{', '{', '~', '!', '-', '-'] ++ (comment ++ ['-', '-', '~', '}']))) ++
        '}' :: behind := by
    simp [tildedComment]
  rw [hcs, List.getLast?_append_of_ne_nil _ (List.cons_ne_nil _ _)]
  intro hlast
  have hmem := List.mem_of_mem_getLast? hlast
  simp [hbehind] at hmem

theorem stripped_tilded (hfront : '{' ∉ front) (hbehind : '{' ∉ behind)
    (hcomment : SelfContained rest comment) :
    stripped (front ++ (tildedComment comment ++ behind) ++ rest) =
      front ++ (tildedComment comment ++ behind) ++ stripped rest :=
  stripped_append (not_opening_tilded hfront hbehind (by decide) (by decide) hcomment.mark)
    (getLast?_tilded hbehind) rest

theorem collapsed_tilded (hfront : Braceless front) (hbehind : Braceless behind)
    (hcomment : SelfContained rest comment) (hrest : (stripped rest).head? = some '{') :
    collapsed (front ++ (tildedComment comment ++ behind) ++ stripped rest) =
      front ++ (tildedComment comment ++ behind) ++ collapsed (stripped rest) := by
  by_cases htriple : ['{', '{', '{'] <:+: comment
  · -- the braces are never closed, in the comment or behind it
    have hno := hcomment.triple htriple
    rw [collapsed_of_not_closed hno]
    refine collapsed_of_not_closed fun hin => ?_
    rcases infix_append_cases hin with hin | hin | ⟨-, -, d, hd, -, hhead⟩
    · exact not_triple_tilded hfront.closing hbehind.closing hcomment.closing hin
    · exact hno hin
    · rw [hrest] at hhead
      obtain rfl : '{' = d := Option.some.inj hhead
      simp at hd
  · exact collapsed_append
      (not_opening_tilded hfront.opening hbehind.opening (by decide) (by decide) htriple)
      (getLast?_tilded hbehind.opening) _

theorem opened_tilded (hfront : '{' ∉ front) (comment cs : List Char) :
    opened (front ++ (tildedComment comment ++ cs)) =
      dropTrailing isBlank front ++
        '{' :: '{' :: '!' :: '-' :: '-' ::
          (opened comment ++ '-' :: '-' :: '~' :: '}' :: '}' :: opened cs) := by
  have hkeep : ∀ c cs, c ∈ ['!', '-', '~', '}'] → opened (c :: cs) = c :: opened cs := by
    intro c cs hc
    refine opened_cons_of_ne ?_ ?_ cs
    · revert c
      decide
    · rintro rfl
      simp at hc
  have hcs : front ++ (tildedComment comment ++ cs) =
      front ++ '{' :: '{' :: '~' ::
        ('!' :: '-' :: '-' :: (comment ++ '-' :: '-' :: '~' :: '}' :: '}' :: cs)) := by
    simp [tildedComment]
  have hend : opened ('-' :: '~' :: '}' :: '}' :: cs) = '-' :: '~' :: '}' :: '}' :: opened cs := by
    rw [hkeep, hkeep, hkeep, hkeep] <;> decide
  rw [hcs, opened_tilde hfront, hkeep _ _ (by decide), hkeep _ _ (by decide),
    hkeep _ _ (by decide), opened_barrier (by decide) (by decide), hend]

/-- What is left inside the braces of a comment, once the tildes are gone. -/
def muted (comment : List Char) : List Char := '!' :: '-' :: '-' :: (opened comment ++ ['-', '-'])

theorem closing_muted (hcomment : ¬ ['}', '}'] <:+: comment) :
    ¬ ['}', '}'] <:+: muted comment := by
  intro hin
  have hinside := infix_of_append ['!', '-', '-'] (by decide) hin
  rcases infix_append_cases hinside with hin | hin | ⟨-, -, d, hd, -, hhead⟩
  · exact hcomment (infix_of_opened (by decide) hin)
  · exact absurd (hin.subset (List.mem_cons_self ..)) (by decide)
  · obtain rfl : '-' = d := Option.some.inj hhead
    simp at hd

theorem getLast?_muted (comment : List Char) : (muted comment).getLast? = some '-' := by
  have hcs : muted comment = ('!' :: '-' :: '-' :: (opened comment ++ ['-'])) ++ ['-'] := by
    simp [muted]
  rw [hcs, List.getLast?_append_of_ne_nil _ (List.cons_ne_nil _ _)]
  rfl

theorem closed_tilded (hfront : '}' ∉ front) (hcomment : ¬ ['}', '}'] <:+: comment)
    (cs : List Char) :
    closed (front ++ '{' :: '{' :: (muted comment ++ '~' :: '}' :: '}' :: cs)) =
      front ++ '{' :: '{' :: (muted comment ++ '}' :: '}' :: closed (cs.dropWhile isBlank)) := by
  have hcs : ∀ cs, front ++ '{' :: '{' :: (muted comment ++ cs) =
      (front ++ (['{', '{'] ++ muted comment)) ++ cs := by
    intro cs
    simp
  have hno : ¬ ['~', '}', '}'] <:+: front ++ (['{', '{'] ++ muted comment) := by
    intro hin
    have hpair : ['}', '}'] <:+: front ++ (['{', '{'] ++ muted comment) :=
      List.IsInfix.trans (List.suffix_cons '~' ['}', '}']).isInfix hin
    have hown := infix_of_append front hfront hpair
    exact closing_muted hcomment (infix_of_append ['{', '{'] (by decide) hown)
  have hlast : (front ++ (['{', '{'] ++ muted comment)).getLast? = some '-' := by
    have hne : muted comment ≠ [] := List.cons_ne_nil _ _
    rw [← List.append_assoc, List.getLast?_append_of_ne_nil _ hne, getLast?_muted]
  have hends : ∀ c ∈ ['~', '}'], (front ++ (['{', '{'] ++ muted comment)).getLast? ≠ some c := by
    rw [hlast]
    decide
  rw [hcs, hcs, closed_append hno (.inl hends), closed_tilde]

/-- **What is left of a tilded comment** is a mustache that is a comment, and the blanks on both
sides of it are gone. -/
theorem passed_tilded (hfront : Braceless front) (hbehind : Braceless behind)
    (hcomment : SelfContained rest comment) (hrest : (stripped rest).head? = some '{') :
    passed (front ++ (tildedComment comment ++ behind) ++ rest) =
      dropTrailing isBlank front ++ '{' :: '{' :: (muted comment ++ '}' :: '}' ::
        ((leading rest behind).dropWhile isBlank ++ passed rest)) := by
  have hopened : opened (front ++ (tildedComment comment ++ behind) ++ collapsed (stripped rest)) =
      dropTrailing isBlank front ++ '{' :: '{' :: (muted comment ++ '~' :: '}' :: '}' ::
        (leading rest behind ++ opened (collapsed (stripped rest)))) := by
    rw [List.append_assoc, List.append_assoc, opened_tilded hfront.opening,
      opened_leading hbehind.opening hrest]
    simp [muted]
  obtain ⟨tail, htail⟩ := List.head?_eq_some_iff.mp (head?_opened (head?_collapsed hrest))
  have hclosed : closed ((leading rest behind ++ '{' :: tail).dropWhile isBlank) =
      (leading rest behind).dropWhile isBlank ++ closed ('{' :: tail) := by
    have hleft : (leading rest behind).dropWhile isBlank ⊆ behind :=
      List.Subset.trans (List.dropWhile_sublist _).subset (leading_subset rest behind)
    have hno : ¬ ['~', '}', '}'] <:+: (leading rest behind).dropWhile isBlank :=
      fun hin => hbehind.closing (hleft (hin.subset (by simp)))
    rw [dropWhile_append_cons (by decide), closed_append hno (.inr (by simp))]
  have htrimmed : '}' ∉ dropTrailing isBlank front :=
    fun hmem => hfront.closing (dropTrailing_subset front hmem)
  rw [passed, stripped_tilded hfront.opening hbehind.opening hcomment,
    collapsed_tilded hfront hbehind hcomment hrest, hopened,
    closed_tilded htrimmed hcomment.closing, htail, hclosed, passed, htail]

/-- What is left of the two texts is what is left of them together. -/
theorem leading_around (rest front behind : List Char) :
    dropTrailing isBlank front ++ (leading rest behind).dropWhile isBlank =
      leading rest (dropTrailing isBlank front ++ behind.dropWhile isBlank) := by
  unfold leading
  split
  · by_cases hblanks : Blanks behind
    · have hnil : behind.dropWhile isBlank = [] := List.dropWhile_eq_nil_iff.mpr hblanks
      rw [dropTrailing_of_blanks hblanks, hnil, List.dropWhile_nil, List.append_nil]
      exact (List.rdropWhile_idempotent isBlank front).symm
    · have hrest : ¬ Blanks (behind.dropWhile isBlank) := by
        intro hall
        rw [Blanks, ← List.dropWhile_eq_nil_iff, List.dropWhile_idempotent] at hall
        exact hblanks (List.dropWhile_eq_nil_iff.mp hall)
      rw [dropTrailing_append_of_not_blanks hrest, dropWhile_dropTrailing]
  · rfl

end Tildes

section Unseen

variable {front behind comment rest : List Char}

/-- A mustache that is a comment gives no tag. -/
theorem tags_comment {r : Template.Reading} {content : List Char}
    (h : (trim content).head? = some '!') (ps : List Piece) :
    r.tags (.mustache content :: ps) = r.tags ps := by
  obtain ⟨tail, htrim⟩ := List.head?_eq_some_iff.mp h
  have hstep : r.step (.mustache content) = .ok (none, r) :=
    (Takes.comment ⟨content, tail, rfl, htrim⟩).step
  rw [Template.Reading.tags, hstep]
  show (r.tags ps >>= fun more => .ok more) = r.tags ps
  cases r.tags ps <;> rfl

/-- A tilded comment is read as nothing between what is left of the two texts. -/
theorem tags_tilded (hfront : Braceless front) (hbehind : Braceless behind)
    (hcomment : SelfContained rest comment) (hrest : (stripped rest).head? = some '{') :
    Template.Reading.start.tags
        (pieces (passed (front ++ (tildedComment comment ++ behind) ++ rest))) =
      prepend [.text (String.ofList (dropTrailing isBlank front))] (Template.Reading.start.tags
        (pieces ((leading rest behind).dropWhile isBlank ++ passed rest))) := by
  have hopening : '{' ∉ dropTrailing isBlank front :=
    fun hmem => hfront.opening (dropTrailing_subset front hmem)
  have hlast : (muted comment).getLast? ≠ some '}' := by
    rw [getLast?_muted]
    decide
  have hmuted : (trim (muted comment)).head? = some '!' := by
    rw [head?_trim]
    rfl
  have htext : Template.Reading.start.step (.text (dropTrailing isBlank front)) =
      .ok (some (.text (String.ofList (dropTrailing isBlank front))), Template.Reading.start) := rfl
  rw [passed_tilded hfront hbehind hcomment hrest,
    pieces_mustache hopening (closing_muted hcomment.closing) hlast, tags_cons_eq _ htext,
    tags_comment hmuted]

/-- **A template with a tilded comment is the one without it**, and without the blanks on both sides
of it. -/
theorem render_tildedComment (hfront : Braceless front) (hbehind : Braceless behind)
    (hrest : Speaks rest) (hcomment : SelfContained rest comment) (context : Members) :
    render defaultRules (String.ofList (front ++ (tildedComment comment ++ behind) ++ rest))
        context =
      render defaultRules
        (String.ofList (dropTrailing isBlank front ++ behind.dropWhile isBlank ++ rest))
        context := by
  obtain ⟨read, hread, htags⟩ := hrest.read
  have hfirst : Braceless (dropTrailing isBlank front) :=
    hfront.of_subset (dropTrailing_subset front)
  have hsecond : Braceless (behind.dropWhile isBlank) :=
    hbehind.of_subset (List.dropWhile_sublist _).subset
  have hleft : Braceless ((leading rest behind).dropWhile isBlank) :=
    hbehind.of_subset
      (List.Subset.trans (List.dropWhile_sublist _).subset (leading_subset rest behind))
  have hboth := hfirst.append hleft
  rw [leading_around] at hboth
  rw [render_eq_shownTags, render_eq_shownTags, applyAll_passed, applyAll_passed, Tag.read,
    Tag.read]
  simp only [String.toList_ofList]
  rw [tags_tilded hfront hbehind hcomment hrest.opening, hread _ hleft.opening,
    passed_front (hfirst.append hsecond) hrest.opening, hread _ hboth.opening]
  cases read with
  | error e => rfl
  | ok tags =>
      obtain ⟨tag, more, rfl, htag, -⟩ := htags tags rfl
      have htext : String.ofList (leading rest
          (dropTrailing isBlank front ++ behind.dropWhile isBlank)) =
          String.ofList (dropTrailing isBlank front) ++
            String.ofList ((leading rest behind).dropWhile isBlank) := by
        rw [← String.ofList_append, leading_around]
      have hplain := hboth.plain
      rw [htext] at hplain
      show _ = shownTags (.text (String.ofList _) :: tag :: more) context
      rw [htext]
      exact shownTags_joined hplain htag context

end Unseen

/--
**Comments are unseen**, as long as nothing in them is taken for a part of another mustache.

Between two texts without braces a comment is gone whatever is in it. One with tildes takes the
blanks around it along, and is gone as well if it is self-contained. What follows begins with a
mustache, and is shown behind the texts as it is alone; only a tilde in it takes blanks of theirs.
-/
theorem comments_unseen {front behind comment rest : List Char} (hfront : Braceless front)
    (hbehind : Braceless behind) (hrest : Speaks rest) (context : Members) :
    (¬ ['-', '-', '}', '}'] <:+: comment →
      render defaultRules (String.ofList (front ++ longComment comment ++ behind ++ rest)) context =
        (render defaultRules (String.ofList rest) context).map
          (settledText (String.ofList (leading rest (front ++ behind))) ++ ·))
      ∧ (SelfContained rest comment →
        render defaultRules (String.ofList (front ++ tildedComment comment ++ behind ++ rest))
            context =
          (render defaultRules (String.ofList rest) context).map
            (settledText (String.ofList (leading rest
              (dropTrailing isBlank front ++ behind.dropWhile isBlank))) ++ ·)) := by
  refine ⟨fun hcomment => ?_, fun hcomment => ?_⟩
  · rw [List.append_assoc, List.append_assoc, render_longComment hfront.opening hcomment,
      ← List.append_assoc, render_front (hfront.append hbehind) hrest]
  · have hleft : Braceless (dropTrailing isBlank front ++ behind.dropWhile isBlank) :=
      (hfront.of_subset (dropTrailing_subset front)).append
        (hbehind.of_subset (List.dropWhile_sublist _).subset)
    rw [List.append_assoc front, render_tildedComment hfront hbehind hrest hcomment,
      render_front hleft hrest]

/-- A context with one member. -/
def oneContext : Members := [("x", .int 1)]

/-- A mustache that shows it. -/
def oneMustache : List Char := ['{', '{', 'x', '}', '}']

theorem saying_one : Saying ['x'] := ⟨⟨by decide, by decide⟩, by decide⟩

theorem speaks_oneMustache : Speaks oneMustache := speaks_double saying_one []

/-- Braces and tildes in a comment are not seen. -/
theorem comments_unseen_between :
    render defaultRules "a \x7b\x7b!--b\x7d\x7dc--\x7d\x7d d\x7b\x7bx\x7d\x7d" oneContext =
        .ok "a  d1"
      ∧ render defaultRules "a \x7b\x7b~!--b\x7d~\x7bc--~\x7d\x7d d\x7b\x7bx\x7d\x7d" oneContext =
        .ok "ad1" := by
  have hfront : Braceless ['a', ' '] := ⟨by decide, by decide⟩
  have hbehind : Braceless [' ', 'd'] := ⟨by decide, by decide⟩
  have hshown : render defaultRules (String.ofList oneMustache) oneContext = .ok "1" := by
    rw [defaultRules_eq]
    exact toOption_eq_some_iff.mp (by decide)
  refine ⟨?_, ?_⟩
  · have hcomment : ¬ ['-', '-', '}', '}'] <:+: ['b', '}', '}', 'c'] := by decide
    have hlong := (comments_unseen hfront hbehind speaks_oneMustache oneContext).1 hcomment
    rw [hshown] at hlong
    exact hlong
  · have hcontained : SelfContained oneMustache ['b', '}', '~', '{', 'c'] :=
      ⟨by decide, by decide, by decide⟩
    have htilded := (comments_unseen hfront hbehind speaks_oneMustache oneContext).2 hcontained
    rw [hshown] at htilded
    exact htilded

/-- With tildes inside its braces, a comment ends at the first closing ones, and a comment or a
triple brace inside it goes on behind it. -/
theorem tilded_comments_seen :
    (Braceless ['a', ' '] ∧ Braceless [' ', 'd'] ∧ Speaks oneMustache
        ∧ Speaks "\x7b\x7b\x7bx\x7d\x7d\x7d".toList)
      ∧ (∀ comment ∈ ["b\x7d\x7dc", "\x7b\x7b! b", "\x7b\x7b\x7b b"],
        ¬ "--\x7d\x7d".toList <:+: comment.toList ∧ ¬ "--~\x7d\x7d".toList <:+: comment.toList)
      ∧ render defaultRules "a \x7b\x7b~!--b\x7d\x7dc--~\x7d\x7d d\x7b\x7bx\x7d\x7d" oneContext =
        .ok "ac--\x7d\x7dd1"
      ∧ render defaultRules "a \x7b\x7b~!--\x7b\x7b! b--~\x7d\x7d d\x7b\x7bx\x7d\x7d" oneContext =
        .ok "a"
      ∧ render defaultRules "a \x7b\x7b~!--\x7b\x7b\x7b b--~\x7d\x7d d\x7b\x7b\x7bx\x7d\x7d\x7d"
        oneContext = .ok "ad" := by
  have hfront : Braceless ['a', ' '] := ⟨by decide, by decide⟩
  have hbehind : Braceless [' ', 'd'] := ⟨by decide, by decide⟩
  have htriple : Speaks "\x7b\x7b\x7bx\x7d\x7d\x7d".toList := speaks_triple saying_one []
  rw [defaultRules_eq]
  refine ⟨⟨hfront, hbehind, speaks_oneMustache, htriple⟩, by decide, ?_, ?_, ?_⟩
  · exact toOption_eq_some_iff.mp (by decide +kernel)
  · exact toOption_eq_some_iff.mp (by decide)
  · exact toOption_eq_some_iff.mp (by decide +kernel)

end Formwork.Proofs
