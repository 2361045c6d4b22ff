import Formwork.Proofs.Template.Cutting
import Formwork.Proofs.Template.Scoping

/-!
# Texts are literal

A template is printed as a block template, so its texts are put into a language with marks
of its own. A text that holds one is protected, and the protection is a pair of marks as
well: a text that holds the closing one ends its own protection (`holdsProtectionEnd`). What
stands behind that belongs to the block template, which is refused if it does not open another
protection (`text_ends_protection`).

Any other text is shown as it stands, up to its line ends. The template is followed from
its source to its output: it is cut at its mustaches (`pieces_written`), which are read as
outputs (`stretches_read`), no two texts are joined because a mustache stands between them
(`nest_stretches`), and what is rendered are the texts and the values of the paths in turn.
-/

namespace Formwork.Proofs

open Formwork Formwork.Template Formwork.Text

/-! ## The end of a protection -/

section Protection

theorem isPrefixOf?_normalizeLines {needle : List Char}
    (h : ∀ c ∈ needle, c ≠ '\r' ∧ c ≠ '\n') (cs : List Char) :
    needle.isPrefixOf? (normalizeLines cs) = (needle.isPrefixOf? cs).map normalizeLines := by
  induction needle generalizing cs with
  | nil => rfl
  | cons x needle ih =>
      obtain ⟨hreturn, hfeed⟩ := h x (List.mem_cons_self ..)
      have htail : ∀ c ∈ needle, c ≠ '\r' ∧ c ≠ '\n' := fun c hc =>
        h c (List.mem_cons_of_mem _ hc)
      fun_cases normalizeLines cs with
      | case1 rest => simp [List.isPrefixOf?, hreturn, hfeed]
      | case2 rest hno => simp [List.isPrefixOf?, hreturn, hfeed]
      | case3 c rest hno hno' =>
          rw [List.isPrefixOf?, List.isPrefixOf?]
          split
          · exact ih htail rest
          · rfl
      | case4 => rfl

theorem isPrefixOf_normalizeLines {needle : List Char}
    (h : ∀ c ∈ needle, c ≠ '\r' ∧ c ≠ '\n') (cs : List Char) :
    needle.isPrefixOf (normalizeLines cs) = needle.isPrefixOf cs := by
  rw [← List.isSome_isPrefixOf?_eq_isPrefixOf, ← List.isSome_isPrefixOf?_eq_isPrefixOf,
    isPrefixOf?_normalizeLines h, Option.isSome_map]

/-- Line ends are blanks, however they are written. -/
theorem dropWhile_normalizeLines (cs : List Char) :
    (normalizeLines cs).dropWhile isBlank = normalizeLines (cs.dropWhile isBlank) := by
  have hreturn : isBlank '\r' = true := by decide
  have hfeed : isBlank '\n' = true := by decide
  induction cs using normalizeLines.induct with
  | case1 rest ih =>
      rw [normalizeLines, List.dropWhile_cons_of_pos hfeed, ih,
        List.dropWhile_cons_of_pos hreturn, List.dropWhile_cons_of_pos hfeed]
  | case2 rest hno ih =>
      rw [normalizeLines.eq_2 _ hno, List.dropWhile_cons_of_pos hfeed, ih,
        List.dropWhile_cons_of_pos hreturn]
  | case3 c rest hno hno' ih =>
      rw [normalizeLines.eq_3 _ _ hno hno']
      by_cases hc : isBlank c = true
      · rw [List.dropWhile_cons_of_pos hc, ih, List.dropWhile_cons_of_pos hc]
      · rw [List.dropWhile_cons_of_neg hc, List.dropWhile_cons_of_neg hc,
          normalizeLines.eq_3 _ _ hno hno']
  | case4 => rfl

/-- What follows the sign of a mark, if it has one. -/
def behindSign : List Char → List Char
  | '-' :: more => more
  | '+' :: more => more
  | more => more

theorem behindSign_of_ne {c : Char} {rest : List Char} (hminus : c ≠ '-') (hplus : c ≠ '+') :
    behindSign (c :: rest) = c :: rest := by
  unfold behindSign
  split
  · rename_i heq
    exact absurd (List.cons.inj heq).1 hminus
  · rename_i heq
    exact absurd (List.cons.inj heq).1 hplus
  · rfl

theorem behindSign_normalizeLines (cs : List Char) :
    behindSign (normalizeLines cs) = normalizeLines (behindSign cs) := by
  fun_cases normalizeLines cs with
  | case1 rest => rfl
  | case2 rest hno =>
      rw [behindSign_of_ne (by decide) (by decide), behindSign_of_ne (by decide) (by decide),
        normalizeLines.eq_2 _ hno]
  | case3 c rest hno hno' =>
      by_cases hminus : c = '-'
      · subst hminus
        rfl
      by_cases hplus : c = '+'
      · subst hplus
        rfl
      rw [behindSign_of_ne hminus hplus, behindSign_of_ne hminus hplus,
        normalizeLines.eq_3 _ _ hno hno']
  | case4 => rfl

theorem endsProtection_eq (cs : List Char) : endsProtection cs =
    match "\x7b%".toList.isPrefixOf? cs with
    | none => false
    | some rest =>
      match "endraw".toList.isPrefixOf? ((behindSign rest).dropWhile isBlank) with
      | none => false
      | some rest =>
        ["%\x7d", "+%\x7d", "-%\x7d"].any fun m =>
          m.toList.isPrefixOf (rest.dropWhile isBlank) := rfl

theorem endsProtection_normalizeLines (cs : List Char) :
    endsProtection (normalizeLines cs) = endsProtection cs := by
  rw [endsProtection_eq, endsProtection_eq, isPrefixOf?_normalizeLines (by simp)]
  cases "\x7b%".toList.isPrefixOf? cs with
  | none => rfl
  | some rest =>
      rw [Option.map_some]
      dsimp only
      rw [behindSign_normalizeLines, dropWhile_normalizeLines,
        isPrefixOf?_normalizeLines (by simp)]
      cases "endraw".toList.isPrefixOf? ((behindSign rest).dropWhile isBlank) with
      | none => rfl
      | some rest =>
          rw [Option.map_some]
          dsimp only
          rw [dropWhile_normalizeLines]
          simp only [List.any_cons, List.any_nil]
          rw [isPrefixOf_normalizeLines (by simp), isPrefixOf_normalizeLines (by simp),
            isPrefixOf_normalizeLines (by simp)]

theorem holdsProtectionEnd_normalizeLines (cs : List Char) :
    holdsProtectionEnd (normalizeLines cs) = holdsProtectionEnd cs := by
  have hline : ∀ (c : Char) (rest : List Char), c ≠ '\x7b' →
      endsProtection (c :: rest) = false := by
    intro c rest hc
    rw [endsProtection_eq]
    simp [List.isPrefixOf?, hc.symm]
  induction cs using normalizeLines.induct with
  | case1 rest ih =>
      rw [normalizeLines, holdsProtectionEnd, holdsProtectionEnd, holdsProtectionEnd, ih,
        hline _ _ (by decide), hline _ _ (by decide), hline _ _ (by decide)]
      rfl
  | case2 rest hno ih =>
      rw [normalizeLines.eq_2 _ hno, holdsProtectionEnd, holdsProtectionEnd, ih,
        hline _ _ (by decide), hline _ _ (by decide)]
  | case3 c rest hno hno' ih =>
      have hlines := normalizeLines.eq_3 c rest hno hno'
      have hends := endsProtection_normalizeLines (c :: rest)
      rw [hlines] at hends
      rw [hlines, holdsProtectionEnd, holdsProtectionEnd, ih, hends]
  | case4 => rfl

/-- What does not hold the end of its protection is one text. -/
theorem textParts_shielded {cs : List Char} (h : holdsProtectionEnd cs = false) {fuel : Nat}
    (hfuel : cs.length ≤ fuel) (data : List Char) :
    textParts fuel true data cs = .ok [.text (String.ofList (data.reverse ++ cs))] := by
  induction cs generalizing fuel data with
  | nil =>
      rw [List.append_nil]
      cases fuel <;> rfl
  | cons c rest ih =>
      obtain ⟨fuel, rfl⟩ := Nat.exists_eq_add_of_lt hfuel
      rw [holdsProtectionEnd, Bool.or_eq_false_iff] at h
      rw [textParts, h.1, if_neg Bool.false_ne_true,
        ih h.2 (Nat.le_add_right _ _), List.reverse_cons, List.append_assoc]
      rfl

theorem ofText_of_not_end {s : String} (h : holdsProtectionEnd s.toList = false) :
    Node.ofText s = .ok [.text s] := by
  rw [Node.ofText, textParts_shielded h (Nat.le_refl _), List.reverse_nil, List.nil_append,
    String.ofList_toList, ite_self]

/-- The end of a protection begins with a mark. -/
theorem infix_of_holdsProtectionEnd {cs : List Char} (h : holdsProtectionEnd cs = true) :
    "\x7b%".toList <:+: cs := by
  induction cs with
  | nil => cases h
  | cons c rest ih =>
      rw [holdsProtectionEnd, Bool.or_eq_true] at h
      rcases h with hend | hrest
      · cases hmark : "\x7b%".toList.isPrefixOf? (c :: rest) with
        | none =>
            rw [endsProtection_eq, hmark] at hend
            cases hend
        | some behind => exact ⟨[], behind, List.isPrefixOf?_eq_some_iff_append_eq.mp hmark⟩
      · exact List.infix_cons (ih hrest)

/-- A text without marks does not hold it. -/
theorem holdsProtectionEnd_of_plain {s : String} (h : needsProtection s = false) :
    holdsProtectionEnd s.toList = false :=
  Bool.eq_false_iff.mpr fun hend =>
    needsProtection_eq_false_iff.mp h _ (by decide) (infix_of_holdsProtectionEnd hend)

/-- Nor does a text hold it, with its lines settled, that did not before. -/
theorem holdsProtectionEnd_settledText {s : String} (h : holdsProtectionEnd s.toList = false) :
    holdsProtectionEnd (settledText s).toList = false := by
  rw [settledText, String.toList_ofList, holdsProtectionEnd_normalizeLines, h]

theorem holdsProtectionEnd_settledEnd {s : String} (h : holdsProtectionEnd s.toList = false) :
    holdsProtectionEnd (settledEnd s).toList = false := by
  cases hs : needsProtection s with
  | true =>
      rw [settledEnd, hs, if_pos rfl]
      exact holdsProtectionEnd_settledText h
  | false =>
      have hplain := settledEnd_plain ⟨s, hs⟩
      dsimp only at hplain
      rw [hplain]
      exact holdsProtectionEnd_of_plain (PlainText.final ⟨s, hs⟩).plain

/-- No text of the tags holds the end of its protection. -/
def KeepsProtection (tags : List Tag) : Prop :=
  ∀ s, Tag.text s ∈ tags → holdsProtectionEnd s.toList = false

/-- A tag is a text that holds the end of its protection. -/
def endsProtection : Tag → Bool
  | .text s => holdsProtectionEnd s.toList
  | _ => false

section Tags

variable {tag : Tag} {tags : List Tag} {s : String}

theorem keepsProtection_iff : KeepsProtection tags ↔ ∀ tag ∈ tags, endsProtection tag = false := by
  refine ⟨fun h tag htag => ?_, fun h s hs => h _ hs⟩
  cases tag with
  | text s => exact h s htag
  | _ => rfl

instance : Decidable (KeepsProtection tags) := decidable_of_iff _ keepsProtection_iff.symm

theorem keepsProtection_text_cons :
    KeepsProtection (.text s :: tags) ↔
      holdsProtectionEnd s.toList = false ∧ KeepsProtection tags := by
  simp [KeepsProtection, or_imp, forall_and]

theorem keepsProtection_cons (h : isTextTag tag = false) :
    KeepsProtection (tag :: tags) ↔ KeepsProtection tags := by
  have hne : ∀ s, Tag.text s ≠ tag := by
    rintro s rfl
    cases h
  simp [KeepsProtection, hne]

/-- Joining texts makes none that ends its protection. -/
theorem keepsProtection_joinTexts (h : KeepsProtection tags) : KeepsProtection (joinTexts tags) := by
  induction tags with
  | nil => exact h
  | cons tag rest ih =>
      cases tag with
      | text s =>
          obtain ⟨hs, hrest⟩ := keepsProtection_text_cons.mp h
          have hjoined := ih hrest
          rw [joinTexts]
          split
          · rename_i t more hjoin
            rw [hjoin] at hjoined
            split
            · exact keepsProtection_text_cons.mpr ⟨hs, hjoined⟩
            · rename_i hplain
              exact keepsProtection_text_cons.mpr
                ⟨holdsProtectionEnd_of_plain (Bool.eq_false_iff.mpr hplain),
                  (keepsProtection_text_cons.mp hjoined).2⟩
          · split
            · exact hjoined
            · exact keepsProtection_text_cons.mpr ⟨hs, hjoined⟩
      | _ =>
          exact (keepsProtection_cons rfl).mpr (ih ((keepsProtection_cons rfl).mp h))

theorem keepsProtection_settleTexts (h : KeepsProtection tags) :
    KeepsProtection (settleTexts tags) := by
  fun_induction settleTexts tags with
  | case1 => exact h
  | case2 s lines =>
      have hs := holdsProtectionEnd_settledEnd (keepsProtection_text_cons.mp h).1
      rw [settledEnd, settledText, ← apply_ite String.ofList] at hs
      exact keepsProtection_text_cons.mpr ⟨hs, fun _ hmem => absurd hmem List.not_mem_nil⟩
  | case3 s rest _ ih =>
      obtain ⟨hs, hrest⟩ := keepsProtection_text_cons.mp h
      exact keepsProtection_text_cons.mpr ⟨holdsProtectionEnd_settledText hs, ih hrest⟩
  | case4 tag rest _ htext ih =>
      have htag : isTextTag tag = false := by
        cases tag with
        | text s => exact absurd rfl (htext s)
        | _ => rfl
      exact (keepsProtection_cons htag).mpr (ih ((keepsProtection_cons htag).mp h))

theorem keepsProtection_settle (h : KeepsProtection tags) : KeepsProtection (settle tags) :=
  keepsProtection_settleTexts (keepsProtection_joinTexts h)

end Tags

end Protection

/-! ## Templates of texts and paths -/

/-- What is inside the braces spells the path, which goes up no scope. -/
def Stretch.Spelled (s : Stretch) : Prop :=
  Prints (.path s.path) (.mustache s.content) ∧ s.path.ups = 0

/-- What is shown of the texts and paths: each text as it stands, up to its line ends, and the value
of each path in its place, if all of these can be shown. -/
def shown (context : Members) (first : String) : List Stretch → Except CallFault String
  | [] => .ok (settledEnd first)
  | s :: rest => do
    let value ← (s.path.eval context []).render
    let more ← shown context s.text rest
    .ok (settledText first ++ value ++ more)

/-- The tags of texts and paths. -/
def stretchTags (first : String) : List Stretch → List Tag
  | [] => [.text first]
  | s :: rest => .text first :: .output (.reference (s.path.reference [])) :: stretchTags s.text rest

/-- The form of texts and paths. -/
def stretchNodes (first : String) : List Stretch → List Node
  | [] => shownNodes first (settledEnd first)
  | s :: rest =>
    shownNodes first (settledText first) ++
      .output (.reference (s.path.reference [])) :: stretchNodes s.text rest

section Stretches

variable {first : String} {rest : List Stretch} {context : Members}

theorem stretches_read (h : ∀ s ∈ rest, s.Spelled) :
    Template.Reading.start.tags (stretchPieces first rest) = .ok (stretchTags first rest) := by
  induction rest generalizing first with
  | nil => exact tags_cons_eq [] (step_text _ first)
  | cons s rest ih =>
      obtain ⟨hprints, hups⟩ := h s (List.mem_cons_self ..)
      have hin : (Term.path s.path).InScope Template.Reading.start.scopes.length := by
        show s.path.ups ≤ 0
        omega
      have hrest : Template.Reading.start.tags (stretchPieces s.text rest) =
          .ok (stretchTags s.text rest) :=
        ih fun s' hs' => h s' (List.mem_cons_of_mem _ hs')
      rw [stretchPieces, tags_cons_eq _ (step_text _ first),
        tags_cons_eq _ (hprints.step.1 hin), hrest]
      rfl

theorem nest_stretches (hfirst : holdsProtectionEnd first.toList = false)
    (hrest : ∀ s ∈ rest, holdsProtectionEnd s.text.toList = false) (nodes : List Node) :
    nest [] nodes (settle (stretchTags first rest)) =
      .ok (nodes.reverse ++ stretchNodes first rest) := by
  induction rest generalizing first nodes with
  | nil =>
      have hnest : nest [] nodes ((if first.isEmpty then [] else [.text (settledEnd first)]) ++ []) =
          nest [] ((shownNodes first (settledEnd first)).reverse ++ nodes) [] :=
        nest_shown (ofText_of_not_end (holdsProtectionEnd_settledEnd hfirst)) []
      rw [List.append_nil] at hnest
      rw [stretchTags, settle_end, hnest, nest, List.reverse_append, List.reverse_reverse]
      rfl
  | cons s rest ih =>
      have hnext := ih (hrest s (List.mem_cons_self ..))
        (fun s' hs' => hrest s' (List.mem_cons_of_mem _ hs'))
        (.output (.reference (s.path.reference [])) ::
          ((shownNodes first (settledText first)).reverse ++ nodes))
      have hshown := ofText_of_not_end (holdsProtectionEnd_settledText hfirst)
      rw [stretchTags, settle_before rfl, nest_shown hshown, settle_cons rfl, nest]
      show nest [] _ (settle (stretchTags s.text rest)) = _
      rw [hnext, stretchNodes]
      simp

theorem settledText_of_empty {s : String} (h : s = "") : settledText s = "" := by
  rw [h]
  rfl

theorem settledEnd_of_empty {s : String} (h : s = "") : settledEnd s = "" := by
  rw [h]
  decide

/-- A path outside all blocks leads to what it leads to in the context. -/
theorem render_stretches :
    renderAll ⟨context, []⟩ (stretchNodes first rest) = shown context first rest := by
  induction rest generalizing first with
  | nil =>
      have hend := renderAll_shownNodes ⟨context, []⟩ (settledEnd_of_empty (s := first)) []
      rw [List.append_nil] at hend
      rw [stretchNodes, hend, renderAll, shown]
      show Except.ok (settledEnd first ++ "") = _
      rw [String.append_empty]
  | cons s rest ih =>
      have hlevels : Levels [] [] 0 := ⟨List.nodup_nil, fun _ h => absurd h List.not_mem_nil, rfl⟩
      have hfollow : (⟨context, []⟩ : Env).follow (s.path.reference []) = s.path.eval context [] :=
        follow_reference hlevels s.path
      have houtput : (Expr.reference (s.path.reference [])).output ⟨context, []⟩ =
          .ok (s.path.eval context []) := congrArg Except.ok hfollow
      rw [stretchNodes, renderAll_shownNodes _ settledText_of_empty, renderAll, Node.render,
        houtput, ok_bind, ih, shown]
      cases (s.path.eval context []).render with
      | error fault => rfl
      | ok value =>
          cases shown context s.text rest with
          | error fault => rfl
          | ok more => exact congrArg Except.ok (String.append_assoc ..).symm

end Stretches

/--
**Texts are literal.**

A template of texts and paths renders to its texts as they stand, up to their line ends, with the
value of each path in its place: whatever marks of block templates are in the texts, except for the
end of a protection. If one of the values cannot be shown, nothing is.
-/
theorem texts_are_literal {first : String} {s : Stretch} {rest : List Stretch}
    (hapart : Apart first (s :: rest)) (hpaths : ∀ s' ∈ s :: rest, s'.Spelled)
    (hfirst : holdsProtectionEnd first.toList = false)
    (hrest : ∀ s' ∈ s :: rest, holdsProtectionEnd s'.text.toList = false) (context : Members) :
    evaluateValue defaultRules (.str (String.ofList (written first (s :: rest)))) context =
      .ok ((shown context first (s :: rest)).toOption.getD "") := by
  have hopens : opensMustache (String.ofList (written first (s :: rest))) = true := by
    unfold opensMustache contains
    rw [occursIn_iff, String.toList_ofList]
    exact ⟨first.toList, _, by simp [written]; rfl⟩
  have hidle : Rule.applyAll defaultRules (String.ofList (written first (s :: rest))) =
      String.ofList (written first (s :: rest)) := by
    rw [defaultRules_eq]
    refine applyAll_of_idle fun r hr => ?_
    rw [String.toList_ofList]
    exact builtIn_idle hapart r hr
  have hread : Tag.read (String.ofList (written first (s :: rest))) =
      .ok (stretchTags first (s :: rest)) := by
    rw [Tag.read, String.toList_ofList, pieces_written hapart]
    exact stretches_read hpaths
  have hform : Node.ofTags (stretchTags first (s :: rest)) = .ok (stretchNodes first (s :: rest)) :=
    nest_stretches hfirst hrest []
  have hcompile : compile defaultRules (String.ofList (written first (s :: rest))) =
      .ok (stretchNodes first (s :: rest)) := by
    rw [compile, hidle, hread]
    show (Node.ofTags (stretchTags first (s :: rest))).mapError _ = _
    rw [hform]
    rfl
  have hrender : render defaultRules (String.ofList (written first (s :: rest))) context =
      (shown context first (s :: rest)).mapError .call := by
    rw [render, hcompile]
    show (renderAll ⟨context, []⟩ (stretchNodes first (s :: rest))).mapError _ = _
    rw [render_stretches]
  rw [evaluateValue, evaluateText, hopens, if_pos rfl, hrender]
  cases shown context first (s :: rest) <;> rfl

/-! ## Marks in texts -/

/-- The name in a context, and the text behind it. -/
def nameStretch (text : String) : Stretch := ⟨"name".toList, ⟨0, .item, [.key "name"]⟩, text⟩

theorem nameStretch_spelled (text : String) : (nameStretch text).Spelled := by
  have hprints : Prints (.path ⟨0, .item, [.key "name"]⟩) (.mustache "name".toList) :=
    prints_path rfl (by decide) (by decide) (reads_path (by decide))
  exact ⟨hprints, rfl⟩

theorem nameStretch_bare (text : String) : Bare (nameStretch text).content := by
  have hname : Bare "name".toList := by constructor <;> decide
  exact hname

theorem clear_of_occursIn {s : String}
    (h : occursIn ['{', '{'] s.toList = false ∧ occursIn ['~', '}', '}'] s.toList = false
      ∧ s.toList.head? ≠ some '}' ∧ s.toList.getLast? ≠ some '{') : Clear s.toList where
  opening := fun hin => by simp [occursIn_iff.mpr hin] at h
  tilde := fun hin => by simp [occursIn_iff.mpr hin] at h
  start := h.2.2.1
  ending := h.2.2.2

/-- Marks in the texts, which nothing closes, and a value that looks like a template. -/
theorem texts_are_literal_marks :
    evaluateValue defaultRules
        (.str "\x7b% raw %\x7d \x7b\x7bname\x7d\x7d\r\n\x7b# \x7b\x7bname\x7d\x7d %\x7d\n")
        [("name", .str "\x7b\x7bx\x7d\x7d")] =
      .ok "\x7b% raw %\x7d \x7b\x7bx\x7d\x7d\n\x7b# \x7b\x7bx\x7d\x7d %\x7d\n" := by
  have hclear : Clear "\x7b% raw %\x7d ".toList ∧ Clear "\r\n\x7b# ".toList
      ∧ Clear " %\x7d\n".toList :=
    ⟨clear_of_occursIn (by decide), clear_of_occursIn (by decide), clear_of_occursIn (by decide)⟩
  have hapart : Apart "\x7b% raw %\x7d " [nameStretch "\r\n\x7b# ", nameStretch " %\x7d\n"] := by
    refine ⟨hclear.1, fun s hs => ?_⟩
    rcases List.mem_pair.mp hs with rfl | rfl
    · exact ⟨nameStretch_bare _, hclear.2.1⟩
    · exact ⟨nameStretch_bare _, hclear.2.2⟩
  have hpaths : ∀ s ∈ [nameStretch "\r\n\x7b# ", nameStretch " %\x7d\n"], s.Spelled := by
    intro s hs
    rcases List.mem_pair.mp hs with rfl | rfl <;> exact nameStretch_spelled _
  have hends : ∀ s ∈ [nameStretch "\r\n\x7b# ", nameStretch " %\x7d\n"],
      holdsProtectionEnd s.text.toList = false := by
    decide
  exact texts_are_literal hapart hpaths (by decide) hends [("name", .str "\x7b\x7bx\x7d\x7d")]

/-- A text that ends its own protection and opens no other empties the whole template. -/
theorem text_ends_protection :
    Apart "\x7b% endraw %\x7d" [nameStretch ""] ∧ (nameStretch "").Spelled
      ∧ shown [("name", .str "x")] "\x7b% endraw %\x7d" [nameStretch ""] =
        .ok "\x7b% endraw %\x7dx"
      ∧ evaluateValue defaultRules (.str "\x7b% endraw %\x7d\x7b\x7bname\x7d\x7d")
          [("name", .str "x")] = .ok "" := by
  have hapart : Apart "\x7b% endraw %\x7d" [nameStretch ""] := by
    refine ⟨clear_of_occursIn (by decide), fun s hs => ?_⟩
    obtain rfl := List.mem_singleton.mp hs
    exact ⟨nameStretch_bare _, clear_of_occursIn (by decide)⟩
  refine ⟨hapart, nameStretch_spelled _, by rfl, ?_⟩
  rw [defaultRules_eq]
  rfl

end Formwork.Proofs
