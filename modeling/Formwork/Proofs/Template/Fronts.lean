import Formwork.Proofs.Template.Compilation
import Formwork.Proofs.Template.Native
import Formwork.Proofs.Template.Passes

/-!
# Texts in front of a source

A text without braces in front of a source passes the lexical rules as it is, up to the blanks at
its end, which a tilde behind opening braces takes (`leading`). Where the source begins with a
mustache that is no comment (`Speaks`), the text is cut off in front of it and becomes the first
tag, and what is read behind it does not depend on it.

The tags that are read are nested. Whatever is put in front of nested tags stays in front of all
that they make (`nest_putInFront`), so the text is shown, with its lines settled, in front of what
the source shows alone (`render_front`).

Every mustache in double or triple braces that holds no brace and is no comment begins such a source
(`speaks_double`, `speaks_triple`).
-/

namespace Formwork.Proofs

open Formwork Formwork.Template Formwork.Text

/-! ## Texts in front of a mustache -/

/-- A text without braces. -/
structure Braceless (cs : List Char) : Prop where
  opening : '{' ∉ cs
  closing : '}' ∉ cs

/-- Without its comments, the source begins with a brace, and as it is read, with a mustache that is
no comment. -/
structure Speaks (rest : List Char) : Prop where
  opening : (stripped rest).head? = some '{'
  mustache : ∃ content more, pieces (passed rest) = .text [] :: .mustache content :: more
    ∧ (trim content).head? ≠ some '!'

/-- What a source leaves of a text in front of it: blanks at the end are taken by a tilde. -/
def leading (rest text : List Char) : List Char :=
  if ['{', '{', '~'].isPrefixOf (collapsed (stripped rest)) then dropTrailing isBlank text else text

section Fronts

variable {cs text front behind rest content : List Char}

theorem Braceless.of_subset (h : Braceless cs) (hsubset : text ⊆ cs) : Braceless text :=
  ⟨fun hmem => h.opening (hsubset hmem), fun hmem => h.closing (hsubset hmem)⟩

theorem Braceless.append (hfront : Braceless front) (hbehind : Braceless behind) :
    Braceless (front ++ behind) := by
  constructor
  · rw [List.mem_append, not_or]
    exact ⟨hfront.opening, hbehind.opening⟩
  · rw [List.mem_append, not_or]
    exact ⟨hfront.closing, hbehind.closing⟩

/-- Every mark has a brace. -/
theorem Braceless.plain (h : Braceless cs) : needsProtection (String.ofList cs) = false := by
  have hmarks : ∀ m ∈ marks, '{' ∈ m.toList ∨ '}' ∈ m.toList := by decide
  refine needsProtection_eq_false_iff.mpr fun m hm hin => ?_
  rw [String.toList_ofList] at hin
  rcases hmarks m hm with hbrace | hbrace
  · exact h.opening (hin.subset hbrace)
  · exact h.closing (hin.subset hbrace)

theorem leading_subset (rest text : List Char) : leading rest text ⊆ text := by
  unfold leading
  split
  · exact dropTrailing_subset text
  · exact List.Subset.refl text

/-- Comments behind a text without braces are removed as they are without it. -/
theorem stripped_front (htext : '{' ∉ text) (rest : List Char) :
    stripped (text ++ rest) = text ++ stripped rest :=
  stripped_append (fun hin => htext (hin.subset (List.mem_cons_self ..)))
    (fun hlast => htext (List.mem_of_mem_getLast? hlast)) rest

theorem opened_leading (htext : '{' ∉ text) (hrest : (stripped rest).head? = some '{') :
    opened (text ++ collapsed (stripped rest)) =
      leading rest text ++ opened (collapsed (stripped rest)) := by
  unfold leading
  split
  · rename_i htilde
    obtain ⟨behind, hbehind⟩ := List.isPrefixOf_iff_prefix.mp htilde
    have hopened : opened ('{' :: '{' :: '~' :: behind) = '{' :: '{' :: opened behind :=
      opened_tilde List.not_mem_nil behind
    have hfront := opened_tilde htext behind
    rw [← hbehind]
    exact hfront.trans (congrArg _ hopened.symm)
  · rename_i htilde
    rw [List.isPrefixOf_iff_prefix] at htilde
    refine opened_front htext htilde fun c hc => ?_
    obtain rfl : '{' = c := Option.some.inj ((head?_collapsed hrest).symm.trans hc)
    decide

/-- **A text without braces in front of a source passes as it is**, up to the blanks at its end. -/
theorem passed_front (htext : Braceless text) (hrest : (stripped rest).head? = some '{') :
    passed (text ++ rest) = leading rest text ++ passed rest := by
  have hbraces : collapsed (text ++ stripped rest) = text ++ collapsed (stripped rest) :=
    collapsed_append (fun hin => htext.opening (hin.subset (List.mem_cons_self ..)))
      (fun hlast => htext.opening (List.mem_of_mem_getLast? hlast)) _
  have hhead : (opened (collapsed (stripped rest))).head? = some '{' :=
    head?_opened (head?_collapsed hrest)
  have hleading : ¬ ['~', '}', '}'] <:+: leading rest text := fun hin =>
    htext.closing (leading_subset rest text (hin.subset (by simp)))
  have hclosed := closed_append hleading (.inr (by rw [hhead]; decide))
  rw [passed, stripped_front htext.opening, hbraces, opened_leading htext.opening hrest, hclosed,
    passed]

/-- A text is cut off in front of a mustache. -/
theorem pieces_mustache (hfront : '{' ∉ front) (hin : ¬ ['}', '}'] <:+: content)
    (hlast : content.getLast? ≠ some '}') (behind : List Char) :
    pieces (front ++ '{' :: '{' :: (content ++ '}' :: '}' :: behind)) =
      .text front :: .mustache content :: pieces behind := by
  have hopening : Leftmost ['{', '{']
      (front ++ (['{', '{'] ++ (content ++ '}' :: '}' :: behind))) front
      (content ++ '}' :: '}' :: behind) :=
    leftmost_pair_iff.mpr ⟨fun hin => hfront (hin.subset (List.mem_cons_self ..)),
      fun hend => hfront (List.mem_of_mem_getLast? hend)⟩
  have hclosing : Leftmost ['}', '}'] (content ++ (['}', '}'] ++ behind)) content behind :=
    leftmost_pair_iff.mpr ⟨hin, hlast⟩
  exact (cuts_pieces _).unique (.mustache hopening hclosing (cuts_pieces behind))

theorem pieces_front {more : List Piece} (htext : '{' ∉ text)
    (h : pieces cs = .text [] :: .mustache content :: more) :
    pieces (text ++ cs) = .text text :: .mustache content :: more := by
  have hcuts := cuts_pieces cs
  rw [h] at hcuts
  cases hcuts with
  | @mustache _ _ opened _ _ _ hopen hclose hmore =>
      have hopening : Leftmost ['{', '{'] (text ++ (['{', '{'] ++ opened)) text opened :=
        leftmost_pair_iff.mpr ⟨fun hin => htext (hin.subset (List.mem_cons_self ..)),
          fun hend => htext (List.mem_of_mem_getLast? hend)⟩
      rw [hopen.found]
      exact (cuts_pieces _).unique (.mustache hopening hclose hmore)

end Fronts

/-! ## What is shown of a text in front -/

section Shown

variable {base : List Nat} {blocks : List (Option Nat × Bool)} {tag : Tag} {tags : List Tag}
variable {s t : String}

/-- Nodes put in front of everything that has been read. -/
def putInFront (front : List Node) : List Unfinished → List Node → List Unfinished × List Node
  | [], nodes => ([], nodes ++ front)
  | u :: outer, nodes =>
    let (outer', around) := putInFront front outer u.around
    ({ u with around } :: outer', nodes)

theorem putInFront_cons (front : List Node) (us : List Unfinished) (n : Node) (nodes : List Node) :
    putInFront front us (n :: nodes) =
      ((putInFront front us nodes).1, n :: (putInFront front us nodes).2) := by
  cases us <;> rfl

theorem putInFront_append (front : List Node) (us : List Unfinished) (ns nodes : List Node) :
    putInFront front us (ns ++ nodes) =
      ((putInFront front us nodes).1, ns ++ (putInFront front us nodes).2) := by
  induction ns with
  | nil => rfl
  | cons n ns ih => rw [List.cons_append, putInFront_cons, ih, List.cons_append]

/-- What is put in front of everything stays in front of what the tags make. -/
def KeepsFront (front : List Node) (us : List Unfinished) (nodes : List Node) (tags : List Tag) :
    Prop :=
  nest (putInFront front us nodes).1 (putInFront front us nodes).2 tags =
    (nest us nodes tags).map (front.reverse ++ ·)

/-- **Nodes in front of nested tags stay there.** -/
theorem nest_putInFront (front : List Node) {us : List Unfinished} {nodes : List Node}
    (h : Completes printedTags base blocks tags) (hblocks : us.length = blocks.length) :
    KeepsFront front us nodes tags := by
  induction tags generalizing us nodes blocks with
  | nil =>
      obtain rfl := completes_nil_iff.mp h
      obtain rfl := List.length_eq_zero_iff.mp hblocks
      exact congrArg Except.ok List.reverse_append
  | cons tag rest ih =>
      obtain ⟨blocks', hturn, hrest⟩ := completes_cons_iff.mp h
      cases hturn with
      | plain ha =>
          have hnext : ∀ ns, KeepsFront front us (ns ++ nodes) rest := fun _ => ih hrest hblocks
          simp only [KeepsFront, putInFront_append] at hnext
          cases tag with
          | text s =>
              rw [KeepsFront, nest, nest]
              cases Node.ofText s with
              | error e => rfl
              | ok parts => exact hnext parts.reverse
          | output e =>
              rw [KeepsFront, nest, nest]
              cases e.check with
              | error e => rfl
              | ok _ => exact hnext [.output e]
          | _ => exact ha.elim
      | opened ha =>
          have hinside : ∀ opener, KeepsFront front (⟨opener, none, nodes⟩ :: us) [] rest :=
            fun _ => ih hrest (congrArg (· + 1) hblocks)
          cases tag with
          | openIf negated e =>
              rw [KeepsFront, nest, nest]
              cases e.check with
              | error e => rfl
              | ok _ => exact hinside _
          | openEach level e =>
              rw [KeepsFront, nest, nest]
              cases e.check with
              | error e => rfl
              | ok _ => exact hinside _
          | _ => exact ha.elim
      | closed ha =>
          cases us with
          | nil => cases hblocks
          | cons u outer =>
              have hbehind : KeepsFront front outer (u.finish nodes :: u.around) rest :=
                ih hrest (Nat.succ.inj hblocks)
              rw [KeepsFront, putInFront_cons] at hbehind
              cases tag with
              | closeIf => exact hbehind
              | closeEach => exact hbehind
              | _ => exact ha.elim
      | split ha =>
          obtain rfl : tag = .otherwise := ha
          cases us with
          | nil => cases hblocks
          | cons u outer =>
              obtain ⟨opener, body?, around⟩ := u
              cases body? with
              | none =>
                  have hother : KeepsFront front (⟨opener, some nodes.reverse, around⟩ :: outer) []
                      rest := ih hrest hblocks
                  exact hother
              | some body => rfl

/-- A text in front of nested tags is shown in front of what they show. -/
theorem ofTags_text (hshown : Node.ofText (settledText s) = .ok [.text (settledText s)])
    (htag : isTextTag tag = false) (h : Completes printedTags [] [] (tag :: tags)) :
    Node.ofTags (.text s :: tag :: tags) =
      (Node.ofTags (tag :: tags)).map (shownNodes s (settledText s) ++ ·) := by
  have hsettled : Completes printedTags [] [] (settle (tag :: tags)) :=
    (completes_settle_iff turn_text_iff).mpr h
  have hfront : KeepsFront (shownNodes s (settledText s)).reverse [] [] (settle (tag :: tags)) :=
    nest_putInFront _ hsettled rfl
  show nest [] [] (settle _) = _
  rw [settle_before htag, nest_shown hshown, List.append_nil]
  rw [KeepsFront, List.reverse_reverse] at hfront
  exact hfront

/-- Two texts in front of a tag are one, if neither is protected. -/
theorem settle_joined (hplain : needsProtection (s ++ t) = false) (htag : isTextTag tag = false) :
    settle (.text s :: .text t :: tag :: tags) = settle (.text (s ++ t) :: tag :: tags) := by
  have hjoin : ∀ s, joinTexts (.text s :: tag :: tags) =
      if s.isEmpty then joinTexts (tag :: tags) else .text s :: joinTexts (tag :: tags) := by
    intro s
    cases tag with
    | text s => cases htag
    | _ => rfl
  by_cases ht : t.isEmpty = true
  · obtain rfl := String.isEmpty_iff.mp ht
    rw [settle, settle, String.append_empty, hjoin s, joinTexts, hjoin "", if_pos ht]
    cases tag with
    | text s => cases htag
    | _ => rfl
  · have hboth : ¬ (s ++ t).isEmpty = true := by
      rw [String.isEmpty_iff] at ht ⊢
      intro hnil
      exact ht (String.append_eq_empty_iff.mp hnil).2
    rw [settle, settle, hjoin, joinTexts, hjoin, if_neg ht, if_neg hboth]
    dsimp only
    rw [hplain, if_neg Bool.false_ne_true]

/-- What is shown of tags. -/
def shownTags (tags : List Tag) (context : Members) : Except Failure String := do
  let nodes ← (Node.ofTags tags).mapError .illFormed
  (renderAll ⟨context, []⟩ nodes).mapError .call

theorem render_eq_shownTags (rules : List Template.Rule) (template : String) (context : Members) :
    render rules template context =
      ((Tag.read (Rule.applyAll rules template)).mapError .malformed >>= fun tags =>
        shownTags tags context) := by
  rw [render, compile]
  cases Tag.read (Rule.applyAll rules template) <;> rfl

theorem shownTags_joined (hplain : needsProtection (s ++ t) = false) (htag : isTextTag tag = false)
    (context : Members) :
    shownTags (.text s :: .text t :: tag :: tags) context =
      shownTags (.text (s ++ t) :: tag :: tags) context := by
  have hform : Node.ofTags (.text s :: .text t :: tag :: tags) =
      Node.ofTags (.text (s ++ t) :: tag :: tags) :=
    congrArg (nest [] []) (settle_joined hplain htag)
  rw [shownTags, shownTags, hform]

theorem shownTags_text (hplain : needsProtection s = false) (htag : isTextTag tag = false)
    (h : Completes printedTags [] [] (tag :: tags)) (context : Members) :
    shownTags (.text s :: tag :: tags) context =
      (shownTags (.text "" :: tag :: tags) context).map (settledText s ++ ·) := by
  have hsettled : Node.ofText (settledText s) = .ok [.text (settledText s)] :=
    ofText_plain (PlainText.lines ⟨s, hplain⟩)
  have hnothing : Node.ofText (settledText "") = .ok [.text (settledText "")] :=
    ofText_plain emptyText.lines
  have htext := ofTags_text hsettled htag h
  have hempty := ofTags_text hnothing htag h
  rw [shownTags, shownTags, htext, hempty]
  cases Node.ofTags (tag :: tags) with
  | error fault => rfl
  | ok nodes =>
      show (renderAll ⟨context, []⟩ (_ ++ nodes)).mapError _ =
        ((renderAll ⟨context, []⟩ nodes).mapError _).map _
      rw [renderAll_shownNodes _ settledText_of_empty]
      cases renderAll ⟨context, []⟩ nodes <;> rfl

end Shown

/-! ## Sources that begin with a mustache -/

section Speaking

variable {rest text : List Char}

/-- Only a comment gives no tag, and no mustache gives a text. -/
theorem isTextTag_of_takes {r r' : Template.Reading} {content : List Char} {tag? : Option Tag}
    (h : (trim content).head? ≠ some '!') (htakes : Takes r (.mustache content) tag? r') :
    ∃ tag, tag? = some tag ∧ isTextTag tag = false := by
  cases htakes with
  | comment hp =>
      obtain ⟨_, tail, heq, htrim⟩ := hp
      cases heq
      rw [htrim] at h
      exact absurd rfl h
  | output => exact ⟨_, rfl, rfl⟩
  | choose => exact ⟨_, rfl, rfl⟩
  | each => exact ⟨_, rfl, rfl⟩
  | @close _ b =>
      refine ⟨_, rfl, ?_⟩
      cases b.kind <;> rfl
  | split => exact ⟨_, rfl, rfl⟩

/-- **What is read behind a text does not depend on the text.** -/
theorem Speaks.read (h : Speaks rest) : ∃ read : Except SyntaxError (List Tag),
    (∀ text, '{' ∉ text → Template.Reading.start.tags (pieces (text ++ passed rest)) =
      prepend [.text (String.ofList text)] read)
      ∧ ∀ tags, read = .ok tags → ∃ tag more, tags = tag :: more ∧ isTextTag tag = false
        ∧ Completes printedTags [] [] (tag :: more) := by
  obtain ⟨content, more, hpieces, hspeaks⟩ := h.mustache
  refine ⟨Template.Reading.start.tags (.mustache content :: more), fun text htext => ?_,
    fun tags htags => ?_⟩
  · rw [pieces_front htext hpieces]
    exact tags_cons_eq _ rfl
  · have hcompletes : Completes printedTags [] [] tags := completes_of_tags htags
    obtain ⟨tag?, r', behind, htakes, -, rfl⟩ := tags_cons_eq_ok_iff.mp htags
    obtain ⟨tag, rfl, htag⟩ := isTextTag_of_takes hspeaks htakes
    exact ⟨tag, behind, rfl, htag, hcompletes⟩

/-- **A text without braces is shown in front of what the source behind it shows.** -/
theorem render_front (htext : Braceless text) (hrest : Speaks rest) (context : Members) :
    render defaultRules (String.ofList (text ++ rest)) context =
      (render defaultRules (String.ofList rest) context).map
        (settledText (String.ofList (leading rest text)) ++ ·) := by
  obtain ⟨read, hread, htags⟩ := hrest.read
  have hleading : Braceless (leading rest text) := htext.of_subset (leading_subset rest text)
  have halone : Template.Reading.start.tags (pieces (passed rest)) = prepend [.text ""] read :=
    hread [] List.not_mem_nil
  rw [render_eq_shownTags, render_eq_shownTags, applyAll_passed, applyAll_passed, Tag.read,
    Tag.read]
  simp only [String.toList_ofList]
  rw [passed_front htext hrest.opening, hread _ hleading.opening, halone]
  cases read with
  | error e => rfl
  | ok tags =>
      obtain ⟨tag, more, rfl, htag, hcompletes⟩ := htags tags rfl
      exact shownTags_text hleading.plain htag hcompletes context

end Speaking

/-! ## Mustaches -/

/-- What is behind the tilde that something begins with, if it does. -/
def behindTilde : List Char → List Char
  | '~' :: cs => cs
  | cs => cs

/-- What is inside a mustache holds no brace, and is no comment. -/
structure Saying (content : List Char) : Prop where
  braceless : Braceless content
  speaks : ((behindTilde content).dropWhile isBlank).head? ≠ some '!'

section Mustaches

variable {content cs front behind rest : List Char} {x : Char}

theorem behindTilde_suffix (cs : List Char) : behindTilde cs <:+ cs := by
  unfold behindTilde
  split
  · exact List.suffix_cons ..
  · exact List.suffix_refl _

theorem opened_behindTilde (hcontent : '{' ∉ content) :
    opened ('{' :: '{' :: content) = '{' :: '{' :: behindTilde content := by
  have hself : ∀ cs, '{' ∉ cs → opened cs = cs := fun cs hcs =>
    opened_self fun hin => hcs (hin.subset (List.mem_cons_self ..))
  have hinside := hself _ fun hmem => hcontent ((behindTilde_suffix content).subset hmem)
  by_cases htilde : content.head? = some '~'
  · obtain ⟨cs, rfl⟩ := List.head?_eq_some_iff.mp htilde
    have hopened : opened ('{' :: '{' :: '~' :: cs) = '{' :: '{' :: opened cs :=
      opened_tilde List.not_mem_nil cs
    have hcs : opened cs = cs := hinside
    rw [hopened, hcs]
    rfl
  · have hbehind : behindTilde content = content := by
      unfold behindTilde
      split
      · exact absurd rfl htilde
      · rfl
    rw [opened_braces (head?_ne_of_not_mem hcontent) htilde, hbehind, hself _ hcontent]

/-- **What begins with a mustache that holds no brace, and is no comment, speaks.** -/
theorem speaks_of_collapsed (hcontent : Saying content)
    (hopening : (stripped rest).head? = some '{')
    (hrest : collapsed (stripped rest) = '{' :: '{' :: (content ++ '}' :: '}' :: behind)) :
    Speaks rest := by
  have hsubset := (behindTilde_suffix content).subset
  have hopened : opened ('{' :: '{' :: (content ++ '}' :: '}' :: behind)) =
      '{' :: '{' :: (behindTilde content ++ '}' :: '}' :: opened behind) := by
    rw [← List.cons_append, ← List.cons_append, opened_barrier (by decide) (by decide),
      opened_behindTilde hcontent.braceless.opening, opened_cons_of_ne (by decide) (by decide)]
    rfl
  obtain ⟨inside, after, hclosed, hstarts⟩ :=
    closed_inside (fun hmem => hcontent.braceless.closing (hsubset hmem)) (opened behind)
  have hinside : '}' ∉ inside := fun hmem =>
    hcontent.braceless.closing (hsubset (hstarts.subset hmem))
  have hpassed : passed rest = '{' :: '{' :: (inside ++ '}' :: '}' :: after) := by
    rw [passed, hrest, hopened, closed_cons_of_ne (by decide), closed_cons_of_ne (by decide),
      hclosed]
  refine ⟨hopening, inside, pieces after, ?_, ?_⟩
  · rw [hpassed]
    have hcut : pieces ([] ++ '{' :: '{' :: (inside ++ '}' :: '}' :: after)) =
        .text [] :: .mustache inside :: pieces after :=
      pieces_mustache List.not_mem_nil (fun hin => hinside (hin.subset (List.mem_cons_self ..)))
        (fun hlast => hinside (List.mem_of_mem_getLast? hlast)) after
    exact hcut
  · rw [head?_trim]
    intro hmark
    obtain ⟨tail, hbehind⟩ := hstarts
    have hne : ¬ (inside.dropWhile isBlank).isEmpty = true := by
      intro hnil
      rw [List.isEmpty_iff.mp hnil] at hmark
      cases hmark
    refine hcontent.speaks ?_
    rw [← hbehind, List.dropWhile_append, if_neg hne, List.head?_append, hmark]
    rfl

/-- Opening braces are followed by what is inside. -/
theorem not_opening_braces {closing : List Char} (hx : x ≠ '}') (hclosing : ∀ c ∈ closing, c = '}')
    (hcontent : '{' ∉ content) (hhead : content.head? ≠ some x) :
    ¬ ['{', '{', x] <:+: '{' :: '{' :: (content ++ closing) := by
  have hinside : ∀ y, y ≠ '}' → content.head? ≠ some y → ¬ [y] <+: content ++ closing := by
    intro y hy hne hstarts
    cases content with
    | nil => exact hy (hclosing y (hstarts.subset (List.mem_cons_self ..)))
    | cons c cs => exact hne (congrArg some (List.cons_prefix_cons.mp hstarts).1.symm)
  intro hin
  rw [List.infix_cons_iff, List.infix_cons_iff] at hin
  rcases hin with hhere | hhere | hlater
  · exact hinside x hx hhead (List.cons_prefix_cons.mp (List.cons_prefix_cons.mp hhere).2).2
  · have hbrace := (List.cons_prefix_cons.mp hhere).2
    refine hinside '{' (by decide) (head?_ne_of_not_mem hcontent) ?_
    exact (List.prefix_append ['{'] [x]).trans hbrace
  · rcases List.mem_append.mp (hlater.subset (List.mem_cons_self ..)) with hmem | hmem
    · exact hcontent hmem
    · exact absurd (hclosing '{' hmem) (by decide)

theorem Saying.head? (h : Saying content) : content.head? ≠ some '!' := by
  intro hmark
  obtain ⟨cs, rfl⟩ := List.head?_eq_some_iff.mp hmark
  exact h.speaks rfl

/-- A mustache in double braces. -/
theorem speaks_double (h : Saying content) (behind : List Char) :
    Speaks ('{' :: '{' :: (content ++ ['}', '}']) ++ behind) := by
  have hno : ∀ x, x ≠ '}' → content.head? ≠ some x →
      ¬ ['{', '{', x] <:+: '{' :: '{' :: (content ++ ['}', '}']) := fun x hx hhead =>
    not_opening_braces hx (by decide) h.braceless.opening hhead
  have hlast : ('{' :: '{' :: (content ++ ['}', '}'])).getLast? ≠ some '{' := by
    rw [← List.cons_append, ← List.cons_append,
      List.getLast?_append_of_ne_nil _ (List.cons_ne_nil _ _)]
    decide
  have hstripped := stripped_append (hno '!' (by decide) h.head?) hlast behind
  have hbrace := head?_ne_of_not_mem h.braceless.opening
  have hcollapsed := collapsed_append (hno '{' (by decide) hbrace) hlast (stripped behind)
  have hrest : collapsed (stripped ('{' :: '{' :: (content ++ ['}', '}']) ++ behind)) =
      '{' :: '{' :: (content ++ '}' :: '}' :: collapsed (stripped behind)) := by
    rw [hstripped, hcollapsed]
    simp
  refine speaks_of_collapsed h ?_ hrest
  rw [hstripped]
  rfl

/-- A mustache in triple braces. -/
theorem speaks_triple (h : Saying content) (behind : List Char) :
    Speaks ('{' :: '{' :: '{' :: (content ++ ['}', '}', '}']) ++ behind) := by
  have hno : ¬ ['{', '{', '!'] <:+: '{' :: '{' :: '{' :: (content ++ ['}', '}', '}']) := by
    rw [List.infix_cons_iff]
    rintro (hhere | hlater)
    · simp at hhere
    · exact not_opening_braces (by decide) (by decide) h.braceless.opening h.head? hlater
  have hlast : ('{' :: '{' :: '{' :: (content ++ ['}', '}', '}'])).getLast? ≠ some '{' := by
    rw [← List.cons_append, ← List.cons_append, ← List.cons_append,
      List.getLast?_append_of_ne_nil _ (List.cons_ne_nil _ _)]
    decide
  have hstripped := stripped_append hno hlast behind
  have hbreak : breakAt? "\x7d\x7d\x7d".toList
      (content ++ (['}', '}', '}'] ++ stripped behind)) = some (content, stripped behind) := by
    refine breakAt?_behind (List.cons_ne_nil _ _) (not_prefix_of_suffix ?_ (.inl ?_))
    · exact fun hin => h.braceless.closing (hin.subset (List.mem_cons_self ..))
    · intro c hc hend
      obtain rfl : c = '}' := by simpa using hc
      exact h.braceless.closing (List.mem_of_mem_getLast? hend)
  have hmatch : Rule.tripleBraces? ('{' :: '{' :: '{' ::
      (content ++ (['}', '}', '}'] ++ stripped behind))) =
        some (['{', '{'] ++ content ++ ['}', '}'], stripped behind) := by
    have hbody : "\x7b\x7b\x7b".toList.isPrefixOf? ('{' :: '{' :: '{' ::
        (content ++ (['}', '}', '}'] ++ stripped behind))) =
          some (content ++ (['}', '}', '}'] ++ stripped behind)) := rfl
    rw [Rule.tripleBraces?, hbody, Option.bind_eq_bind, Option.bind_some, hbreak]
    rfl
  have hcollapsed : collapsed ('{' :: '{' :: '{' ::
      (content ++ (['}', '}', '}'] ++ stripped behind))) =
        ['{', '{'] ++ content ++ ['}', '}'] ++ collapsed (stripped behind) :=
    replaceMatches_match shrinks_tripleBraces? hmatch
  have hrest : collapsed (stripped ('{' :: '{' :: '{' :: (content ++ ['}', '}', '}']) ++ behind)) =
      '{' :: '{' :: (content ++ '}' :: '}' :: collapsed (stripped behind)) := by
    rw [hstripped, List.cons_append, List.cons_append, List.cons_append, List.append_assoc,
      hcollapsed]
    simp
  refine speaks_of_collapsed h ?_ hrest
  rw [hstripped]
  rfl

end Mustaches

end Formwork.Proofs
