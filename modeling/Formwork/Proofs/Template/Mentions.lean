import Formwork.Proofs.Template.Literal
import Formwork.Proofs.Template.Words

/-!
# What a template can see

A template names what it reads of its context: every path of its tags is resolved while it is read,
and one that starts from the context goes through a key of it at once, unless it is the context
itself. Two contexts with the same values under the keys that a template names are one to it, in
each of its uses (`sees_only_mentions`).

It must not hold a text that ends its own protection. What stands behind that belongs to the block
template, where a statement can print a key that no tag names (`text_prints_key`). In any other
template nothing is made of the tags that does not come from one of them (`nest_within`).

Nothing else has a name. A word in the place of a term is a constant or a path, even if a helper has
that name too, and it is printed as a look-up of that key in the context, so that no variable of the
printed form is read through it.
-/

namespace Formwork.Proofs

open Formwork Formwork.Template Formwork.Text

/-! ## Mentions -/

mutual

/-- The paths of an expression. -/
def Expr.references : Expr → List Reference
  | .call _ args => Expr.referencesOf args
  | .reference r => [r]
  | _ => []

/-- The paths of the arguments of a call. -/
def Expr.referencesOf : List Expr → List Reference
  | [] => []
  | e :: es => Expr.references e ++ Expr.referencesOf es

end

mutual

/-- The paths of a part of a template. -/
def Node.references : Node → List Reference
  | .text _ => []
  | .output e => Expr.references e
  | .choose _ e body otherwise =>
    Expr.references e ++ (Node.referencesOf body ++ Node.referencesOf otherwise)
  | .each _ e body otherwise =>
    Expr.references e ++ (Node.referencesOf body ++ Node.referencesOf otherwise)

/-- The paths of the parts of a template. -/
def Node.referencesOf : List Node → List Reference
  | [] => []
  | n :: ns => Node.references n ++ Node.referencesOf ns

end

/-- The paths of a tag. -/
def Tag.references : Tag → List Reference
  | .output e => Expr.references e
  | .openIf _ e => Expr.references e
  | .openEach _ e => Expr.references e
  | _ => []

/-- The tags of a value that may be a template. -/
def tagsOf (rules : List Template.Rule) : Value → List Tag
  | .str source => (Tag.read (Rule.applyAll rules source)).toOption.getD []
  | _ => []

/-- The paths of the expression that a template is, if it is one. -/
def expressionReferences (rules : List Template.Rule) (source : String) : List Reference :=
  match singleExpression? (Template.Rule.applyAll rules source) with
  | none => []
  | some expression =>
    match Expr.read [] expression with
    | .ok e => Expr.references e
    | .error _ => []

/-- The paths of a value that may be a template. -/
def references (rules : List Template.Rule) (template : Value) : List Reference :=
  (tagsOf rules template).flatMap Tag.references ++
    match template with
    | .str source => expressionReferences rules source
    | _ => []

/-- The key of the context that a path goes through, if it starts from there. -/
def rootKey? : Reference → Option String
  | ⟨.context, .key name :: _⟩ => some name
  | _ => none

/-- The path that is the context itself. -/
def wholeContext : Reference := ⟨.context, []⟩

/-- Two contexts look alike along paths that stay within some keys of them. -/
structure Alike (paths : List Reference) (first second : Members) : Prop where
  keys : ∀ r ∈ paths, ∀ name, rootKey? r = some name →
    Ordered.get? first name = Ordered.get? second name
  notWhole : wholeContext ∉ paths

/-! ## The paths of what is made of tags -/

section Nesting

variable {paths : List Reference} {tag : Tag} {tags : List Tag} {nodes : List Node}

/-- All paths of these parts are among the given ones. -/
def PathsWithin (paths : List Reference) (nodes : List Node) : Prop :=
  ∀ n ∈ nodes, Node.references n ⊆ paths

theorem referencesOf_subset_iff : Node.referencesOf nodes ⊆ paths ↔ PathsWithin paths nodes := by
  induction nodes with
  | nil => simp [Node.referencesOf, PathsWithin]
  | cons n ns ih =>
      rw [Node.referencesOf, List.append_subset, ih]
      exact (List.forall_mem_cons (p := fun n => Node.references n ⊆ paths)).symm

/-- The path of what opens a block. -/
def Opener.references : Opener → List Reference
  | .choose _ e => Expr.references e
  | .each _ e => Expr.references e

theorem references_node (opener : Opener) (body otherwise : List Node) :
    Node.references (opener.node body otherwise) =
      Opener.references opener ++ (Node.referencesOf body ++ Node.referencesOf otherwise) := by
  cases opener <;> rw [Opener.node, Node.references, Opener.references]

/-- All paths of an open block and of what is around it are among the given ones. -/
structure OpenWithin (paths : List Reference) (u : Unfinished) : Prop where
  opener : Opener.references u.opener ⊆ paths
  body : ∀ body, u.body? = some body → PathsWithin paths body
  around : PathsWithin paths u.around

theorem pathsWithin_reverse (h : PathsWithin paths nodes) : PathsWithin paths nodes.reverse :=
  fun n hn => h n (List.mem_reverse.mp hn)

theorem pathsWithin_finish {u : Unfinished} (hu : OpenWithin paths u)
    (h : PathsWithin paths nodes) : PathsWithin paths (u.finish nodes :: u.around) := by
  refine List.forall_mem_cons.mpr ⟨?_, hu.around⟩
  have hnodes := referencesOf_subset_iff.mpr (pathsWithin_reverse h)
  unfold Unfinished.finish
  split
  · rw [references_node]
    exact List.append_subset.mpr
      ⟨hu.opener, List.append_subset.mpr ⟨hnodes, List.nil_subset paths⟩⟩
  · rename_i body hbody
    rw [references_node]
    exact List.append_subset.mpr ⟨hu.opener,
      List.append_subset.mpr ⟨referencesOf_subset_iff.mpr (hu.body body hbody), hnodes⟩⟩

theorem openWithin_of_opener {opener : Opener} (hopener : Opener.references opener ⊆ paths)
    (h : PathsWithin paths nodes) : OpenWithin paths ⟨opener, none, nodes⟩ :=
  ⟨hopener, nofun, h⟩

/-- **What is made of tags has no path that none of them has.** -/
theorem nest_within {blocks : List Unfinished} {made : List Node}
    (hkeeps : KeepsProtection tags) (htags : ∀ tag ∈ tags, Tag.references tag ⊆ paths)
    (hblocks : ∀ u ∈ blocks, OpenWithin paths u) (hnodes : PathsWithin paths nodes)
    (h : nest blocks nodes tags = .ok made) : PathsWithin paths made := by
  induction tags generalizing blocks nodes with
  | nil =>
      obtain rfl := Except.ok.inj h
      exact pathsWithin_reverse hnodes
  | cons tag rest ih =>
      obtain ⟨htag, hrest⟩ := List.forall_mem_cons.mp htags
      have hkept : KeepsProtection rest := fun s hs => hkeeps s (List.mem_cons_of_mem _ hs)
      have hinside : ∀ opener, Opener.references opener ⊆ paths →
          ∀ u ∈ (⟨opener, none, nodes⟩ : Unfinished) :: blocks, OpenWithin paths u :=
        fun opener hopener =>
          List.forall_mem_cons.mpr ⟨openWithin_of_opener hopener hnodes, hblocks⟩
      cases tag with
      | text s =>
          rw [nest, ofText_of_not_end (hkeeps s (List.mem_cons_self ..)), ok_bind] at h
          have hshown : Node.references (.text s) ⊆ paths := List.nil_subset paths
          exact ih hkept hrest hblocks (List.forall_mem_cons.mpr ⟨hshown, hnodes⟩) h
      | output e =>
          obtain ⟨-, -, hmade⟩ := bind_eq_ok.mp h
          have houtput : Node.references (.output e) ⊆ paths := htag
          exact ih hkept hrest hblocks (List.forall_mem_cons.mpr ⟨houtput, hnodes⟩) hmade
      | openIf negated e =>
          obtain ⟨-, -, hmade⟩ := bind_eq_ok.mp h
          exact ih hkept hrest (hinside (.choose negated e) htag) (List.forall_mem_nil _) hmade
      | openEach level e =>
          obtain ⟨-, -, hmade⟩ := bind_eq_ok.mp h
          exact ih hkept hrest (hinside (.each level e) htag) (List.forall_mem_nil _) hmade
      | otherwise =>
          cases blocks with
          | nil => cases h
          | cons u outer =>
              obtain ⟨hu, houter⟩ := List.forall_mem_cons.mp hblocks
              obtain ⟨opener, body?, around⟩ := u
              cases body? with
              | some body => cases h
              | none =>
                  have hsplit : OpenWithin paths ⟨opener, some nodes.reverse, around⟩ :=
                    ⟨hu.opener, by rintro body ⟨⟩; exact pathsWithin_reverse hnodes, hu.around⟩
                  exact ih hkept hrest (List.forall_mem_cons.mpr ⟨hsplit, houter⟩)
                    (List.forall_mem_nil _) h
      | closeIf =>
          cases blocks with
          | nil => exact ih hkept hrest hblocks hnodes h
          | cons u outer =>
              obtain ⟨hu, houter⟩ := List.forall_mem_cons.mp hblocks
              exact ih hkept hrest houter (pathsWithin_finish hu hnodes) h
      | closeEach =>
          cases blocks with
          | nil => exact ih hkept hrest hblocks hnodes h
          | cons u outer =>
              obtain ⟨hu, houter⟩ := List.forall_mem_cons.mp hblocks
              exact ih hkept hrest houter (pathsWithin_finish hu hnodes) h

/-- Settling makes texts only. -/
theorem mem_joinTexts (h : tag ∈ joinTexts tags) (htag : isTextTag tag = false) : tag ∈ tags := by
  have hne : ∀ s, tag ≠ .text s := by
    rintro s rfl
    cases htag
  fun_induction joinTexts tags with
  | case1 => exact h
  | case2 s rest t more hjoin hmark ih => grind
  | case3 s rest t more hjoin hmark ih => grind
  | case4 s rest hjoin hempty ih => grind
  | case5 s rest hjoin hempty ih => grind
  | case6 t rest htext ih => grind

theorem mem_settleTexts (h : tag ∈ settleTexts tags) (htag : isTextTag tag = false) :
    tag ∈ tags := by
  have hne : ∀ s, tag ≠ .text s := by
    rintro s rfl
    cases htag
  fun_induction settleTexts tags with
  | case1 => exact h
  | case2 s lines => exact absurd (List.mem_singleton.mp h) (hne _)
  | case3 s rest _ ih => grind
  | case4 t rest _ htext ih => grind

theorem references_settle (htags : ∀ tag ∈ tags, Tag.references tag ⊆ paths) :
    ∀ tag ∈ settle tags, Tag.references tag ⊆ paths := by
  intro tag hmem
  cases htag : isTextTag tag with
  | false => exact htags tag (mem_joinTexts (mem_settleTexts hmem htag) htag)
  | true =>
      cases tag with
      | text s => exact List.nil_subset paths
      | _ => cases htag

/-- The form of a template has the paths of its tags. -/
theorem referencesOf_ofTags {made : List Node} (hkeeps : KeepsProtection tags)
    (h : Node.ofTags tags = .ok made) :
    Node.referencesOf made ⊆ tags.flatMap Tag.references :=
  referencesOf_subset_iff.mpr (nest_within (keepsProtection_settle hkeeps)
    (references_settle fun tag htag _ hr => List.mem_flatMap.mpr ⟨tag, htag, hr⟩)
    (List.forall_mem_nil _) (List.forall_mem_nil _) h)

end Nesting

/-! ## Two runs -/

section Runs

variable {first second : Members} {scopes : List ItemScope}

theorem Alike.mono {paths more : List Reference} (h : Alike more first second)
    (hsub : paths ⊆ more) : Alike paths first second :=
  ⟨fun r hr => h.keys r (hsub hr), fun hmem => h.notWhole (hsub hmem)⟩

/-- A step into the context sees the value under its key at most. -/
theorem step_context (s : Step) (h : ∀ name, s = .key name →
    Ordered.get? first name = Ordered.get? second name) :
    (Operand.value (.object first)).step s = (Operand.value (.object second)).step s := by
  cases s with
  | index n => rfl
  | key name =>
      show (if _ then _ else Operand.ofOption (Ordered.get? first name)) =
        if _ then _ else Operand.ofOption (Ordered.get? second name)
      rw [h name rfl]

theorem follow_alike {r : Reference} (h : Alike [r] first second) :
    (⟨first, scopes⟩ : Env).follow r = (⟨second, scopes⟩ : Env).follow r := by
  obtain ⟨base, steps⟩ := r
  cases base with
  | context =>
      cases steps with
      | nil => exact absurd (List.mem_singleton.mpr rfl) h.notWhole
      | cons s steps =>
          -- the first step leads to the same value, and the others go on from there
          have hstep : (Operand.value (.object first)).step s =
              (Operand.value (.object second)).step s :=
            step_context s fun name hs =>
              h.keys _ (List.mem_singleton.mpr rfl) name (by rw [hs]; rfl)
          exact congrArg (steps.foldl Operand.step) hstep
  | item level => rfl
  | index level => rfl
  | isFirst level => rfl
  | isLast level => rfl

mutual

/-- **An expression does not tell contexts apart that look alike along its paths.** -/
theorem eval_alike : ∀ e : Expr, Alike (Expr.references e) first second →
    e.eval ⟨first, scopes⟩ = e.eval ⟨second, scopes⟩
  | .call helper args, h => by
      rw [Expr.eval, Expr.eval, evalAll_alike args h]
  | .reference r, h => congrArg Except.ok (follow_alike h)
  | .literal _, _ => rfl
  | .number _, _ => rfl
  | .bool _, _ => rfl
  | .absent, _ => rfl

theorem evalAll_alike : ∀ es : List Expr, Alike (Expr.referencesOf es) first second →
    Expr.evalAll ⟨first, scopes⟩ es = Expr.evalAll ⟨second, scopes⟩ es
  | [], _ => rfl
  | e :: es, h => by
      rw [Expr.evalAll, Expr.evalAll, eval_alike e (h.mono (List.subset_append_left ..)),
        evalAll_alike es (h.mono (List.subset_append_right ..))]

end

/-- Nor does what an expression puts out. -/
theorem output_alike {e : Expr} (h : Alike (Expr.references e) first second) :
    e.output ⟨first, scopes⟩ = e.output ⟨second, scopes⟩ := by
  cases e with
  | number text => rfl
  | _ => exact eval_alike _ h

/-- The environments of items differ from those in another context by the context alone. -/
theorem each_eq_map (context : Members) (level : Nat) (items : List Value) :
    (⟨context, scopes⟩ : Env).each level items =
      (items.mapIdx fun i x => (⟨level, x, i, items.length⟩ : ItemScope)).map fun s =>
        ⟨context, s :: scopes⟩ := by
  refine List.ext_getElem (by simp [Env.each]) fun i _ _ => ?_
  simp [Env.each]

mutual

/-- **Nor does a part of a template.** -/
theorem render_alike : ∀ (n : Node) (scopes : List ItemScope),
    Alike (Node.references n) first second →
    n.render ⟨first, scopes⟩ = n.render ⟨second, scopes⟩
  | .text _, _, _ => rfl
  | .output e, _, h => by
      rw [Node.render, Node.render, output_alike h]
  | .choose negated e body otherwise, scopes, h => by
      have hcondition := h.mono (List.subset_append_left ..)
      have hparts := h.mono (List.subset_append_right ..)
      rw [Node.render, Node.render, eval_alike e hcondition,
        renderAll_alike body scopes (hparts.mono (List.subset_append_left ..)),
        renderAll_alike otherwise scopes (hparts.mono (List.subset_append_right ..))]
  | .each level e body otherwise, scopes, h => by
      have hitems := h.mono (List.subset_append_left ..)
      have hparts := h.mono (List.subset_append_right ..)
      -- the items may be anything, so the body has to agree under all scopes
      have hbody : ∀ scopes, renderAll ⟨first, scopes⟩ body = renderAll ⟨second, scopes⟩ body :=
        fun scopes => renderAll_alike body scopes (hparts.mono (List.subset_append_left ..))
      rw [Node.render, Node.render, eval_alike e hitems,
        renderAll_alike otherwise scopes (hparts.mono (List.subset_append_right ..))]
      simp only [each_eq_map, List.foldlM_map, hbody]

theorem renderAll_alike : ∀ (ns : List Node) (scopes : List ItemScope),
    Alike (Node.referencesOf ns) first second →
    renderAll ⟨first, scopes⟩ ns = renderAll ⟨second, scopes⟩ ns
  | [], _, _ => rfl
  | n :: ns, scopes, h => by
      rw [renderAll, renderAll, render_alike n scopes (h.mono (List.subset_append_left ..)),
        renderAll_alike ns scopes (h.mono (List.subset_append_right ..))]

end

variable {rules : List Template.Rule} {source : String}

theorem render_template_alike (hkeeps : KeepsProtection (tagsOf rules (.str source)))
    (h : Alike ((tagsOf rules (.str source)).flatMap Tag.references) first second) :
    render rules source first = render rules source second := by
  rw [render, render, compile]
  rw [tagsOf] at hkeeps h
  cases hread : Tag.read (Rule.applyAll rules source) with
  | error fault => rfl
  | ok tags =>
      rw [hread] at hkeeps h
      rw [mapError_ok, ok_bind]
      cases hform : Node.ofTags tags with
      | error fault => rfl
      | ok nodes =>
          have hnodes := h.mono (referencesOf_ofTags hkeeps hform)
          rw [mapError_ok, ok_bind, ok_bind, renderAll_alike nodes [] hnodes]

theorem evaluateExpression_alike {expression : String}
    (hsingle : singleExpression? (Template.Rule.applyAll rules source) = some expression)
    (h : Alike (expressionReferences rules source) first second) :
    evaluateExpression expression first = evaluateExpression expression second := by
  unfold expressionReferences at h
  rw [hsingle] at h
  dsimp only at h
  rw [evaluateExpression, evaluateExpression]
  cases hread : Expr.read [] expression with
  | error fault => rfl
  | ok e =>
      rw [hread] at h
      rw [mapError_ok, ok_bind, ok_bind, eval_alike e h]

end Runs

/-- All uses of a template agree in contexts that look alike to it. -/
theorem evaluate_alike {rules : List Template.Rule} {template : Value} {first second : Members}
    (hkeeps : KeepsProtection (tagsOf rules template))
    (h : Alike (references rules template) first second) :
    evaluateValue rules template first = evaluateValue rules template second
      ∧ evaluateCondition rules template first = evaluateCondition rules template second
      ∧ evaluateNative rules template first = evaluateNative rules template second := by
  cases template with
  | str source =>
      have hrender := render_template_alike hkeeps (h.mono (List.subset_append_left ..))
      refine ⟨?_, ?_, ?_⟩
      · rw [evaluateValue, evaluateValue, evaluateText, evaluateText, hrender]
      · rw [evaluateCondition, evaluateCondition, holds, holds, hrender]
      · rw [evaluateNative, evaluateNative, hrender]
        cases hsingle : singleExpression? (Template.Rule.applyAll rules source) with
        | none => rfl
        | some expression =>
            dsimp only
            rw [evaluateExpression_alike hsingle (h.mono (List.subset_append_right ..))]
  | null => exact ⟨rfl, rfl, rfl⟩
  | bool b => exact ⟨rfl, rfl, rfl⟩
  | int n => exact ⟨rfl, rfl, rfl⟩
  | float x => exact ⟨rfl, rfl, rfl⟩
  | list xs => exact ⟨rfl, rfl, rfl⟩
  | object ms => exact ⟨rfl, rfl, rfl⟩

/-! ## Names that are not there -/

/-- A name that is a path of its own: it is no number and no constant, and does not mark a tag. -/
structure Identifier (name : String) : Prop where
  plain : PlainWord name.toList
  start : ∀ c, name.toList.head? = some c → isDigitForm c = false ∧ c ∉ ['-', '@', '#', '!']
  notReserved : name ∉ ["true", "false", "null", "undefined", "this", "else"]

/-- What is inside a condition that asks whether there is anything under a name. -/
def emptiness (name : List Char) : List Char :=
  ['i', 's', 'E', 'm', 'p', 't', 'y'] ++ ' ' :: name

namespace Identifier

variable {name : String}

theorem isNumber_eq_false (h : Identifier name) : Token.isNumber name.toList = false := by
  obtain ⟨c, cs, hcs⟩ := List.exists_cons_of_ne_nil h.plain.nonempty
  obtain ⟨hdigit, hsigns⟩ := h.start c (by rw [hcs]; rfl)
  rw [hcs]
  refine isNumber_of_head ?_ (fun hc => hsigns (by rw [hc]; decide)) cs
  rw [isDigitForm, Bool.or_eq_false_iff] at hdigit
  exact hdigit.1

theorem isDigits_eq_false (h : Identifier name) : isDigits name.toList = false := by
  obtain ⟨c, cs, hcs⟩ := List.exists_cons_of_ne_nil h.plain.nonempty
  have hdigit := (h.start c (by rw [hcs]; rfl)).1
  rw [hcs, isDigits, List.all_cons, hdigit, Bool.false_and, Bool.and_false]

theorem ne_reserved (h : Identifier name) {word : String}
    (hword : word ∈ ["true", "false", "null", "undefined", "this", "else"]) : name ≠ word := by
  rintro rfl
  exact h.notReserved hword

/-- Outside all blocks a name is the key of that name in the context. -/
theorem ofWord_eq (h : Identifier name) :
    Expr.ofWord [] name = .ok (.reference ⟨.context, [.key name]⟩) := by
  have hconstant : name ∉ ["true", "false", "null", "undefined"] :=
    fun hmem => h.notReserved (List.mem_append_left ["this", "else"] hmem)
  have hat : name.toList.head? ≠ some '@' := fun hhead => (h.start _ hhead).2 (by decide)
  have hthis : name.toList ≠ "this".toList :=
    fun heq => h.ne_reserved (by decide) (String.toList_inj.mp heq)
  have hstep : Step.ofSegment name = .ok (.key name) := by
    rw [Step.ofSegment, h.isDigits_eq_false, if_neg Bool.false_ne_true]
  have hpath := ofPath_root (h.plain.not_mem (by decide))
    (head?_ne_of_not_mem (h.plain.not_mem (by decide))) hat h.plain.splitOn hthis
  rw [String.ofList_toList, List.mapM_cons, List.mapM_nil, String.ofList_toList, hstep] at hpath
  rw [ofWord_of_not_mem hconstant, hpath]
  rfl

/-- In a mustache of its own, a name that no helper has is read as that key. -/
theorem read_eq (h : Identifier name) (hhelper : Helper.ofName? name = none) :
    Expr.read [] name = .ok (.reference ⟨.context, [.key name]⟩) := by
  have hname : Helper.ofName? (String.ofList name.toList) = none := by
    rwa [String.ofList_toList]
  have hread : Expr.read [] (String.ofList name.toList) = _ :=
    read_word (fun c hc => h.plain.isWordPart hc) h.plain.nonempty h.isNumber_eq_false hname
  rw [String.ofList_toList] at hread
  rw [hread, h.ofWord_eq]

theorem ending (h : Identifier name) {c : Char} (hc : name.toList.getLast? = some c) :
    isBlank c = false ∧ c ≠ '~' := by
  have hmem := List.mem_of_getLast? hc
  refine ⟨h.plain.noBlank c hmem, ?_⟩
  rintro rfl
  exact h.plain.noSign _ hmem (by decide)

theorem sole (h : Identifier name) : Sole name.toList where
  nonempty := h.plain.nonempty
  noBrace := fun c hc => h.plain.avoids (by decide) hc
  start := fun c hc => by
    have hmem := List.mem_of_mem_head? hc
    have hsigns := (h.start c hc).2
    have hplain : c ∉ ['/', '~'] := h.plain.avoids (by decide) hmem
    simp only [List.mem_cons, List.not_mem_nil, or_false, not_or] at hsigns hplain ⊢
    exact ⟨h.plain.noBlank c hmem, hsigns.2.2.1, hplain.1, hsigns.2.2.2, hplain.2⟩
  ending := fun c hc => h.ending hc
  notElse := fun heq => h.ne_reserved (by decide) (String.toList_inj.mp heq)

theorem emptiness_sole (h : Identifier name) : Sole (emptiness name.toList) where
  nonempty := nofun
  noBrace := by
    have hfront : ∀ c ∈ ['i', 's', 'E', 'm', 'p', 't', 'y'], c ∉ ['{', '}'] := by decide
    intro c hc
    rcases List.mem_append.mp hc with hc | hc
    · exact hfront c hc
    rcases List.mem_cons.mp hc with rfl | hc
    · decide
    · exact h.sole.noBrace c hc
  start := by
    rintro c ⟨⟩
    decide
  ending := fun c hc => by
    rw [emptiness, List.append_cons, List.getLast?_append_of_ne_nil _ h.plain.nonempty] at hc
    exact h.ending hc
  notElse := nofun

/-- As an argument, a name is read as that key, even if some helper has it. -/
theorem read_emptiness (h : Identifier name) :
    Expr.read [] (String.ofList (emptiness name.toList)) =
      .ok (.call .isEmpty [.reference ⟨.context, [.key name]⟩]) := by
  have htokens : Token.tokenize (String.ofList (emptiness name.toList)) =
      .ok [.word "isEmpty", .word name] := by
    have hlength : (emptiness name.toList).length = name.toList.length + 6 + 1 + 1 := rfl
    rw [Token.tokenize, String.toList_ofList, h.emptiness_sole.trimmed, hlength]
    generalize String.ofList (emptiness name.toList) = source
    rw [emptiness, scan_word_space (by decide) (by decide) (by decide),
      scan_last_word (fun c hc => h.plain.isWordPart hc) h.plain.nonempty h.isNumber_eq_false,
      String.ofList_toList]
    rfl
  rw [Expr.read, htokens, ok_bind]
  show Expr.readCalls [] _ "isEmpty" true ⟨.isEmpty, []⟩ [] [.word name] = _
  simp only [Expr.readCalls, h.ofWord_eq]
  rfl

end Identifier

/-- What goes through a key that is not there leads nowhere. -/
theorem follow_absent {env : Env} {name : String} (h : Ordered.get? env.context name = none)
    (steps : List Step) : env.follow ⟨.context, .key name :: steps⟩ = .undefined := by
  have hfirst : (Operand.value (.object env.context)).step (.key name) = .undefined := by
    show (if _ then Operand.undefined else .ofOption (Ordered.get? env.context name)) = _
    rw [h]
    split <;> rfl
  have hrest : steps.foldl Operand.step .undefined = .undefined := by
    induction steps with
    | nil => rfl
    | cons s steps ih => exact ih
  show steps.foldl Operand.step ((Operand.value (.object env.context)).step (.key name)) = _
  rw [hfirst, hrest]

/-- A name is undefined in a context: it is looked up there and not found, so that there is nothing
under it as an argument; and where it does not call a helper, it has no value in a mustache of its
own. -/
structure Undefined (name : String) (context : Members) : Prop where
  lookedUp : ∃ e, Expr.ofWord [] name = .ok e ∧ e.print = "_ctx[" ++ Json.quotedString name ++ "]"
    ∧ e.eval ⟨context, []⟩ = .ok .undefined
  argument : evaluateCondition defaultRules
    (.str ("\x7b\x7bisEmpty " ++ name ++ "\x7d\x7d")) context = .ok true
  alone : Helper.ofName? name = none →
    evaluateValue defaultRules (.str ("\x7b\x7b" ++ name ++ "\x7d\x7d")) context = .ok ""
      ∧ evaluateCondition defaultRules (.str ("\x7b\x7b" ++ name ++ "\x7d\x7d")) context =
        .ok false
      ∧ evaluateNative defaultRules (.str ("\x7b\x7b" ++ name ++ "\x7d\x7d")) context = .null

section Absent

variable {name : String} {context : Members}

theorem print_key (name : String) :
    (Expr.reference ⟨.context, [.key name]⟩).print = "_ctx[" ++ Json.quotedString name ++ "]" := by
  have hopening : "_ctx" ++ "[" = "_ctx[" := by decide
  show "_ctx" ++ ("" ++ ("[" ++ Json.quotedString name ++ "]")) = _
  rw [String.empty_append, ← String.append_assoc, ← String.append_assoc, hopening]

/-- Whether there is anything under a name that is not there. -/
theorem evaluateCondition_emptiness (hname : Identifier name)
    (habsent : Ordered.get? context name = none) :
    evaluateCondition defaultRules (.str (mustache (emptiness name.toList))) context =
      .ok true := by
  have heval : (Expr.call .isEmpty [.reference ⟨.context, [.key name]⟩]).eval ⟨context, []⟩ =
      .ok (.value (.bool true)) := by
    show Helper.call .isEmpty [(⟨context, []⟩ : Env).follow _] = _
    rw [follow_absent habsent]
    rfl
  rw [evaluateCondition, hname.emptiness_sole.holds_eq
    (evaluateExpression_of_read hname.read_emptiness rfl heval)]
  exact congrArg Except.ok (by decide)

/-- A name that is not there has no value. -/
theorem evaluateExpression_absent (hname : Identifier name) (hhelper : Helper.ofName? name = none)
    (habsent : Ordered.get? context name = none) :
    evaluateExpression (String.ofList name.toList) context = .ok .null := by
  rw [String.ofList_toList]
  refine evaluateExpression_of_read (o := .undefined) (hname.read_eq hhelper) rfl ?_
  exact congrArg Except.ok (follow_absent habsent [])

theorem undefined_of_absent (hname : Identifier name) (habsent : Ordered.get? context name = none) :
    Undefined name context where
  lookedUp :=
    ⟨_, hname.ofWord_eq, print_key name, congrArg Except.ok (follow_absent habsent [])⟩
  argument := by
    have hsource : "\x7b\x7bisEmpty " ++ name ++ "\x7d\x7d" = mustache (emptiness name.toList) :=
      eq_mustache (by simp [emptiness])
    rw [hsource]
    exact evaluateCondition_emptiness hname habsent
  alone := fun hhelper => by
    have hsource : "\x7b\x7b" ++ name ++ "\x7d\x7d" = mustache name.toList :=
      eq_mustache (by simp)
    have hvalue := evaluateExpression_absent hname hhelper habsent
    rw [hsource]
    refine ⟨congrArg Except.ok (hname.sole.evaluateText_eq hvalue), ?_, ?_⟩
    · rw [evaluateCondition, hname.sole.holds_eq hvalue]
      exact congrArg Except.ok (by decide)
    · rw [hname.sole.evaluateNative_eq, hvalue]
      rfl

end Absent

/--
**A template sees the context through the keys that it names, and nothing else.**

Two contexts in which each of these keys has the same value, or none, are one to the template,
unless one of its paths is the whole context or one of its texts ends its own protection. A name
that is not a key of the context is undefined, whatever else has that name.
-/
theorem sees_only_mentions (rules : List Template.Rule) (template : Value) :
    (KeepsProtection (tagsOf rules template) → wholeContext ∉ references rules template →
        ∀ first second : Members,
          (∀ r ∈ references rules template, ∀ name, rootKey? r = some name →
            Ordered.get? first name = Ordered.get? second name) →
          evaluateValue rules template first = evaluateValue rules template second
            ∧ evaluateCondition rules template first = evaluateCondition rules template second
            ∧ evaluateNative rules template first = evaluateNative rules template second)
      ∧ ∀ (name : String) (context : Members), Identifier name →
        Ordered.get? context name = none → Undefined name context :=
  ⟨fun hkeeps hwhole _ _ hkeys => evaluate_alike hkeeps ⟨hkeys, hwhole⟩,
    fun _ _ hname habsent => undefined_of_absent hname habsent⟩

/-- Rows, each with the title of all. -/
def titledRows : Value :=
  .str ("\x7b\x7b#each rows\x7d\x7d\x7b\x7b../title\x7d\x7d: " ++
    "\x7b\x7bname\x7d\x7d\x7b\x7b/each\x7d\x7d")

/-- One row and the title. -/
def rowContext : Members :=
  [("rows", .list [.object [("name", .str "a")]]), ("title", .str "T")]

/-- The same with a key that is named like what the row reads of itself. -/
def namedContext : Members :=
  [("name", .str "b"), ("title", .str "T"), ("rows", .list [.object [("name", .str "a")]])]

/-- The rows name two keys of the context, so that a third changes nothing. Neither a function of
the engine nor a helper is seen by its name. -/
theorem sees_only_mentions_rows :
    evaluateValue Rule.builtIn titledRows rowContext =
        evaluateValue Rule.builtIn titledRows namedContext
      ∧ Undefined "range" rowContext ∧ Undefined "hb_eq" rowContext
      ∧ Undefined "json" rowContext := by
  obtain ⟨hsame, habsent⟩ := sees_only_mentions Rule.builtIn titledRows
  have hreferences : references Rule.builtIn titledRows =
      [⟨.context, [.key "rows"]⟩, ⟨.context, [.key "title"]⟩, ⟨.item 1, [.key "name"]⟩] := by
    decide +kernel
  have hkeeps : KeepsProtection (tagsOf Rule.builtIn titledRows) := by
    decide +kernel
  have hwhole : wholeContext ∉ references Rule.builtIn titledRows := by
    rw [hreferences]
    decide
  have hkeys : ∀ r ∈ references Rule.builtIn titledRows, ∀ name, rootKey? r = some name →
      Ordered.get? rowContext name = Ordered.get? namedContext name := by
    rw [hreferences]
    simp only [List.forall_mem_cons, List.not_mem_nil, false_imp_iff, implies_true, and_true]
    refine ⟨fun name h => ?_, fun name h => ?_, fun name h => ?_⟩
    · cases h
      rfl
    · cases h
      rfl
    · cases h
  refine ⟨(hsame hkeeps hwhole _ _ hkeys).1, habsent _ _ ?_ rfl, habsent _ _ ?_ rfl,
    habsent _ _ ?_ rfl⟩
  · exact ⟨⟨by decide, by decide, by decide⟩, by decide, by decide⟩
  · exact ⟨⟨by decide, by decide, by decide⟩, by decide, by decide⟩
  · exact ⟨⟨by decide, by decide, by decide⟩, by decide, by decide⟩

/-- A template that names one key, behind a text that ends its own protection, prints another key
and opens a protection again. -/
def openedText : Value :=
  .str ("\x7b% endraw %\x7d\x7b% print _ctx[\"secret\"] %\x7d\x7b% raw %\x7d" ++
    "\x7b\x7bx\x7d\x7d")

/-- What the text prints is seen by the template, though no mustache names it. -/
theorem text_prints_key :
    references defaultRules openedText = [⟨.context, [.key "x"]⟩]
      ∧ evaluateValue defaultRules openedText [("x", .str "a")] = .ok "a"
      ∧ evaluateValue defaultRules openedText [("x", .str "a"), ("secret", .str "s")] =
        .ok "sa" := by
  rw [defaultRules_eq]
  refine ⟨by decide +kernel, congrArg Except.ok ?_, congrArg Except.ok ?_⟩
  · decide +kernel
  · decide +kernel

end Formwork.Proofs
