import Formwork.Proofs.Template.Form
import Formwork.Template.Evaluator

/-!
# Rendering is interpretation

Rendering finds a scope by its level, and the interpreter by its place in the chain. The
levels that are open where a node is rendered are those that were open where it was read,
in the same order and all different, so the environment is the chain with the levels
written beside the scopes (`envOf`), and a path finds the same scope both ways.

With that the two agree on every part of a template (`Body.renderAll_nodes`). A level is
new when an `each` block is opened because it is greater than all that were opened before.

Both go to any depth. That the machine which runs a compiled template may refuse one whose blocks
are nested too deeply is left out of either.
-/

namespace Formwork.Proofs

open Formwork Formwork.Template

/-! ## Environments -/

/-- The scope of a level. -/
def Scope.at (level : Nat) (s : Scope) : ItemScope := ⟨level, s.item, s.index, s.count⟩

/-- The environment of a chain of scopes with their levels. -/
def envOf (context : Members) (scopes : List Nat) (chain : List Scope) : Env :=
  ⟨context, List.zipWith Scope.at scopes chain⟩

/-- The levels of a chain of scopes, when so many have been opened. -/
structure Levels (scopes : List Nat) (chain : List Scope) (opened : Nat) : Prop where
  distinct : scopes.Nodup
  opened : ∀ level ∈ scopes, level ≤ opened
  length : scopes.length = chain.length

namespace Levels

variable {scopes : List Nat} {chain : List Scope} {opened : Nat}

theorem mono (h : Levels scopes chain opened) {opened' : Nat} (hle : opened ≤ opened') :
    Levels scopes chain opened' where
  distinct := h.distinct
  opened := fun level hlevel => Nat.le_trans (h.opened level hlevel) hle
  length := h.length

/-- The next level is a new one. -/
theorem push (h : Levels scopes chain opened) (s : Scope) :
    Levels ((opened + 1) :: scopes) (s :: chain) (opened + 1) where
  distinct := by
    refine List.nodup_cons.mpr ⟨fun hmem => ?_, h.distinct⟩
    have := h.opened _ hmem
    omega
  opened := by
    intro level hlevel
    rcases List.mem_cons.mp hlevel with rfl | hlevel
    · exact Nat.le_refl _
    · exact Nat.le_succ_of_le (h.opened level hlevel)
  length := congrArg Nat.succ h.length

/-- **A level is found at its place in the chain.** -/
theorem scope? (context : Members) (hnd : scopes.Nodup) (hlen : scopes.length = chain.length)
    {k level : Nat} (hk : scopes[k]? = some level) :
    ∃ s rest, chain.drop k = s :: rest
      ∧ (envOf context scopes chain).scope? level = some (s.at level) := by
  induction scopes generalizing chain k with
  | nil => cases hk
  | cons l scopes ih =>
      cases chain with
      | nil => cases hlen
      | cons s chain =>
          obtain ⟨hnew, hnd⟩ := List.nodup_cons.mp hnd
          cases k with
          | zero =>
              cases hk
              refine ⟨s, chain, rfl, ?_⟩
              simp [envOf, Env.scope?, Scope.at]
          | succ k =>
              obtain ⟨s', rest, hdrop, hfound⟩ := ih hnd (Nat.succ.inj hlen) hk
              refine ⟨s', rest, hdrop, ?_⟩
              have hne : l ≠ level := by
                rintro rfl
                exact hnew (List.mem_of_getElem? hk)
              have hskip : (envOf context (l :: scopes) (s :: chain)).scope? level =
                  (envOf context scopes chain).scope? level := by
                simp [envOf, Env.scope?, Scope.at, hne]
              rw [hskip, hfound]

end Levels

/-! ## Terms -/

section Terms

variable {context : Members} {scopes : List Nat} {chain : List Scope} {opened : Nat}

/-- A name with an at sign is a loop position of its scope, or else a key of the context. -/
theorem base_binding {env : Env} {level : Nat} {s : Scope} (rest : List Scope)
    (hcontext : env.context = context) (hfound : env.scope? level = some (s.at level))
    (name : String) :
    (bindingBase (some level) name).steps.foldl Operand.step
        (env.base (bindingBase (some level) name).base) =
      PathStart.eval context (s :: rest) (.binding name) := by
  by_cases hindex : name = "@index"
  · subst hindex
    simp [bindingBase, Env.base, hfound, PathStart.eval, Scope.at]
  by_cases hfirst : name = "@first"
  · subst hfirst
    simp [bindingBase, Env.base, hfound, PathStart.eval, Scope.at]
  by_cases hlast : name = "@last"
  · subst hlast
    simp [bindingBase, Env.base, hfound, PathStart.eval, Scope.at]
  · simp [bindingBase, Env.base, hcontext, PathStart.eval, hindex, hfirst, hlast]

/-- **A path leads to the same by levels and along the chain.** -/
theorem follow_reference (h : Levels scopes chain opened) (p : Path) :
    (envOf context scopes chain).follow (p.reference scopes) = p.eval context chain := by
  obtain ⟨ups, start, steps⟩ := p
  unfold Path.eval Path.reference Env.follow
  dsimp only
  cases hscope : scopes[ups]? with
  | none =>
      have hdrop : chain.drop ups = [] := by
        have hover := List.getElem?_eq_none_iff.mp hscope
        exact List.drop_eq_nil_of_le (h.length ▸ hover)
      rw [hdrop]
      cases start with
      | item => rfl
      | binding name => rfl
  | some level =>
      obtain ⟨s, rest, hdrop, hfound⟩ := Levels.scope? context h.distinct h.length hscope
      rw [hdrop]
      cases start with
      | item =>
          simp only [itemBase, Env.base, hfound]
          rfl
      | binding name =>
          dsimp only
          rw [List.foldl_append, base_binding rest rfl hfound]
          rfl

mutual

/-- The form of a term has the operand of the term. -/
theorem Term.eval_expr (h : Levels scopes chain opened) : ∀ t : Term,
    (t.expr scopes).eval (envOf context scopes chain) = t.eval context chain
  | .call helper args => by
      rw [Term.expr, Expr.eval, Term.evalAll_exprs h args, Term.eval]
  | .literal _ => rfl
  | .number text value hvalue => by
      rw [Term.expr, Expr.eval, hvalue, Term.eval]
  | .bool _ => rfl
  | .absent => rfl
  | .path p => congrArg Except.ok (follow_reference h p)

theorem Term.evalAll_exprs (h : Levels scopes chain opened) : ∀ ts : List Term,
    Expr.evalAll (envOf context scopes chain) (Term.exprs scopes ts) =
      Term.evalAll context chain ts
  | [] => rfl
  | t :: ts => by
      rw [Term.exprs, Expr.evalAll, Term.eval_expr h t, Term.evalAll_exprs h ts, Term.evalAll]

end

/-- It puts out what the term does. -/
theorem Term.output_expr (h : Levels scopes chain opened) (t : Term) :
    (t.expr scopes).output (envOf context scopes chain) = t.output context chain := by
  cases t with
  | number text value hvalue =>
      rw [Term.expr, Expr.output, hvalue, Term.output]
      rfl
  | _ => exact Term.eval_expr h _

end Terms

/-! ## Nodes -/

/-- The text that is shown for a text comes first, also when it is empty and has no node. -/
theorem renderAll_shownNodes (env : Env) {s shown : String} (h : s = "" → shown = "")
    (ns : List Node) :
    renderAll env (shownNodes s shown ++ ns) = (do
      let more ← renderAll env ns
      .ok (shown ++ more)) := by
  unfold shownNodes
  split
  · rename_i hempty
    rw [h (String.isEmpty_iff.mp hempty), List.nil_append]
    cases renderAll env ns with
    | error e => rfl
    | ok more => simp [bind, Except.bind]
  · rw [List.singleton_append, renderAll, Node.render]
    rfl

theorem renderAll_textNodes (env : Env) {t shown : PlainText}
    (h : t.text = "" → shown.text = "") (ns : List Node) :
    renderAll env (textNodes t shown ++ ns) = (do
      let more ← renderAll env ns
      .ok (shown.text ++ more)) :=
  renderAll_shownNodes env h ns

theorem lines_of_empty {t : PlainText} (h : t.text = "") : t.lines.text = "" := by
  show String.ofList (Text.normalizeLines t.text.toList) = ""
  rw [h]
  rfl

theorem final_of_empty {t : PlainText} (h : t.text = "") : t.final.text = "" := by
  show String.ofList (dropFinalLine t.lines.text.toList) = ""
  rw [lines_of_empty h]
  rfl

/-- The outputs of environments are those of what they are made from, one after another. -/
theorem foldlM_outputs {α β : Type} (make : α → β) (output : β → Except Template.CallFault String)
    (xs : List α) (out : String) :
    (xs.map make).foldlM (fun out b => (output b).map (out ++ ·)) out = (do
      let outs ← xs.mapM fun x => output (make x)
      .ok (out ++ String.join outs)) := by
  induction xs generalizing out with
  | nil => simp [pure, Except.pure, bind, Except.bind, String.join]
  | cons x xs ih =>
      rw [List.map_cons, List.foldlM_cons, List.mapM_cons]
      cases houtput : output (make x) with
      | error e => rfl
      | ok first =>
          show List.foldlM _ (out ++ first) _ = _
          rw [ih]
          cases xs.mapM fun x => output (make x) with
          | error e => rfl
          | ok outs =>
              show Except.ok _ = Except.ok _
              rw [String.join_cons, String.append_assoc]

theorem scopesOf_cons (x : Value) (xs : List Value) :
    ∃ s ss, scopesOf (x :: xs) = s :: ss := by
  unfold scopesOf
  rw [List.mapIdx_cons]
  exact ⟨_, _, rfl⟩

/-- The environments of the items of a block are those of their scopes. -/
theorem each_envOf (context : Members) (scopes : List Nat) (chain : List Scope) (level : Nat)
    (items : List Value) :
    (envOf context scopes chain).each level items =
      (scopesOf items).map fun s => envOf context (level :: scopes) (s :: chain) := by
  unfold Env.each scopesOf
  refine List.ext_getElem (by simp) fun i _ _ => ?_
  simp [envOf, Scope.at]

mutual

/-- **The nodes of a template render to what the interpreter makes of it.** -/
theorem Body.renderAll_nodes (context : Members) {final : PlainText → PlainText}
    (hfinal : ∀ t : PlainText, t.text = "" → (final t).text = "") :
    ∀ (b : Body) {scopes : List Nat} {chain : List Scope} {opened : Nat},
      Levels scopes chain opened →
      renderAll (envOf context scopes chain) (b.nodes final scopes opened) =
        (b.mapTexts PlainText.lines final).eval context chain
  | .last t, scopes, chain, opened, h => by
      have hlast := renderAll_textNodes (envOf context scopes chain) (hfinal t) []
      rw [List.append_nil] at hlast
      rw [Body.nodes, hlast, Body.mapTexts, Body.eval, renderAll]
      simp [bind, Except.bind]
  | .cons t part rest, scopes, chain, opened, h => by
      rw [Body.nodes, renderAll_textNodes _ lines_of_empty, renderAll,
        Part.render_node context part h,
        Body.renderAll_nodes context hfinal rest (h.mono (Nat.le_add_right ..)), Body.mapTexts,
        Body.eval]
      cases (part.mapTexts PlainText.lines).eval context chain with
      | error e => rfl
      | ok out =>
          cases (rest.mapTexts PlainText.lines final).eval context chain with
          | error e => rfl
          | ok more => simp [bind, Except.bind, String.append_assoc]

theorem Part.render_node (context : Members) :
    ∀ (part : Part) {scopes : List Nat} {chain : List Scope} {opened : Nat},
      Levels scopes chain opened →
      (part.node scopes opened).render (envOf context scopes chain) =
        (part.mapTexts PlainText.lines).eval context chain
  | .output t, scopes, chain, opened, h => by
      rw [Part.node, Node.render, Term.output_expr h]
      rfl
  | .choose negated condition body otherwise, scopes, chain, opened, h => by
      rw [Part.node, Node.render, Term.eval_expr h,
        Body.renderAll_nodes context (fun _ => lines_of_empty) body h,
        Else.renderAll_nodes context otherwise (h.mono (Nat.le_add_right ..))]
      rfl
  | .each items body otherwise, scopes, chain, opened, h => by
      have hother := Else.renderAll_nodes context otherwise
        (h.mono (Nat.le_trans (Nat.le_succ opened) (Nat.le_add_right _ body.eaches)))
      rw [Part.node, Node.render, Term.eval_expr h, Part.mapTexts, Part.eval]
      cases items.eval context chain with
      | error e => rfl
      | ok o =>
          show (match o.items with
            | [] => renderAll _ _
            | xs => List.foldlM _ "" (Env.each _ (opened + 1) xs)) =
            match scopesOf o.items with
            | [] => _
            | scopes => _
          cases o.items with
          | nil => exact hother
          | cons x xs =>
              obtain ⟨s, ss, hs⟩ := scopesOf_cons x xs
              have hbody : ∀ s, renderAll (envOf context ((opened + 1) :: scopes) (s :: chain))
                  (body.nodes PlainText.lines ((opened + 1) :: scopes) (opened + 1)) =
                  (body.mapTexts PlainText.lines PlainText.lines).eval context (s :: chain) :=
                fun s => Body.renderAll_nodes context (fun _ => lines_of_empty) body (h.push s)
              dsimp only
              rw [each_envOf, foldlM_outputs, hs]
              simp only [hbody, String.empty_append]

theorem Else.renderAll_nodes (context : Members) :
    ∀ (e : Else) {scopes : List Nat} {chain : List Scope} {opened : Nat},
      Levels scopes chain opened →
      renderAll (envOf context scopes chain) (e.nodes scopes opened) =
        (e.mapTexts PlainText.lines).eval context chain
  | .none, _, _, _, _ => rfl
  | .some body, _, _, _, h =>
      Body.renderAll_nodes context (fun _ => lines_of_empty) body h

end

/-! ## Templates -/

/--
**Rendering a template is interpreting it on a chain of scopes.**

Whatever the rules make of a source, if that writes a template whose paths stay within the scopes
around them, it renders to what the interpreter makes of the template, with its lines settled, or
fails in the same call. If a path drops more scopes than there are, even where it would not be
evaluated, the template is refused.
-/
theorem render_written (rules : List Template.Rule) {source : String} (context : Members) {b : Body}
    (h : b.Written (pieces (Rule.applyAll rules source).toList)) :
    (b.InScope 0 → render rules source context = (b.settled.eval context []).mapError .call)
      ∧ (¬ b.InScope 0 → ∃ path, render rules source context =
          .error (.malformed (.aboveRoot path))) := by
  constructor
  · intro hin
    have hread := h.read.1 hin
    have hlevels : Levels [] [] 0 := ⟨List.nodup_nil, fun _ h => absurd h List.not_mem_nil, rfl⟩
    have hrender := b.renderAll_nodes context (fun _ => final_of_empty) hlevels
    have hcompile : compile rules source = .ok (b.nodes PlainText.final [] 0) := by
      rw [compile, hread]
      show (Node.ofTags (b.tags [] 0)).mapError _ = _
      rw [b.ofTags_tags]
      rfl
    rw [render, hcompile]
    show (renderAll (envOf context [] []) (b.nodes PlainText.final [] 0)).mapError _ = _
    rw [hrender]
    rfl
  · intro hout
    obtain ⟨path, hread⟩ := h.read.2 hout
    refine ⟨path, ?_⟩
    rw [render, compile, hread]
    rfl

/-! ## Rows of cells -/

/-- The empty text. -/
def emptyText : PlainText := ⟨"", by decide⟩

/-- A word that names no helper and no constant is an expression for its path. -/
theorem reads_path {word : String} {p : Path}
    (h : Token.tokenize word = .ok [.word word] ∧ Helper.ofName? word = none
      ∧ word ∉ ["true", "false", "null", "undefined"] ∧ Path.read word = .ok p) :
    (Term.path p).Reads word := by
  obtain ⟨htokens, hname, hword, hread⟩ := h
  refine ⟨_, htokens, .term (.word ?_) fun name heq => ?_⟩
  · simp only [List.mem_cons, List.not_mem_nil, or_false, not_or] at hword
    simp [Term.ofWord, hword, hread, Except.map]
  · cases heq
    exact hname

theorem prints_path {content : List Char} {c : Char} {tail : List Char} {p : Path}
    (htrim : Text.trim content = c :: tail) (hmark : c ≠ '#' ∧ c ≠ '/' ∧ c ≠ '!')
    (helse : c :: tail ≠ "else".toList) (h : (Term.path p).Reads (String.ofList (c :: tail))) :
    Prints (.path p) (.mustache content) := by
  refine ⟨content, rfl, fun c' hc' => ?_, htrim ▸ helse, htrim ▸ h⟩
  rw [htrim, List.head?_cons, Option.mem_some_iff] at hc'
  exact hc' ▸ hmark

/-- Rules that find nothing to do leave a source as it is. -/
theorem applyAll_of_idle {rules : List Template.Rule} {source : String}
    (h : ∀ r ∈ rules, r.applies source.toList = false) : Rule.applyAll rules source = source := by
  have hfold : rules.foldl Rule.apply source.toList = source.toList := by
    induction rules with
    | nil => rfl
    | cons r rules ih =>
        have hidle := h r (List.mem_cons_self ..)
        rw [List.foldl_cons, Rule.apply, hidle, if_neg Bool.false_ne_true]
        exact ih fun r' hr' => h r' (List.mem_cons_of_mem _ hr')
  rw [Rule.applyAll, hfold, String.ofList_toList]

/-- The built-in rules stand in the order of their priorities. -/
theorem defaultRules_eq : defaultRules = Rule.builtIn :=
  List.mergeSort_of_pairwise (by decide)

/-- Rows with commas between them: the cells of a row behind its name, or its name alone. -/
def rowsSource : String :=
  "\x7b\x7b#each rows\x7d\x7d\x7b\x7b#unless @first\x7d\x7d,\x7b\x7b/unless\x7d\x7d" ++
    "\x7b\x7b#each cells\x7d\x7d\x7b\x7b../name\x7d\x7d\x7b\x7bthis\x7d\x7d" ++
    "\x7b\x7belse\x7d\x7d\x7b\x7bname\x7d\x7d\x7b\x7b/each\x7d\x7d\x7b\x7b/each\x7d\x7d"

/-- The cells of a row. -/
def cellsPart : Part :=
  .each (.path ⟨0, .item, [.key "cells"]⟩)
    (.cons emptyText (.output (.path ⟨1, .item, [.key "name"]⟩))
      (.cons emptyText (.output (.path ⟨0, .item, []⟩)) (.last emptyText)))
    (.some (.cons emptyText (.output (.path ⟨0, .item, [.key "name"]⟩)) (.last emptyText)))

def rowsBody : Body :=
  .cons emptyText
    (.each (.path ⟨0, .item, [.key "rows"]⟩)
      (.cons emptyText
        (.choose true (.path ⟨0, .binding "@first", []⟩) (.last ⟨",", by decide⟩) .none)
        (.cons emptyText cellsPart (.last emptyText)))
      .none)
    (.last emptyText)

theorem rowsBody_written :
    rowsBody.Written (pieces (Rule.applyAll defaultRules rowsSource).toList) := by
  have hidle : ∀ r ∈ Rule.builtIn, r.applies rowsSource.toList = false := by decide +kernel
  have hrows : Opens "each" (.path ⟨0, .item, [.key "rows"]⟩) (.mustache "#each rows".toList) :=
    ⟨_, "rows".toList, rfl, by decide, reads_path (by decide +kernel)⟩
  have hfirst : Opens "unless" (.path ⟨0, .binding "@first", []⟩)
      (.mustache "#unless @first".toList) :=
    ⟨_, "@first".toList, rfl, by decide, reads_path (by decide +kernel)⟩
  have hcells : Opens "each" (.path ⟨0, .item, [.key "cells"]⟩) (.mustache "#each cells".toList) :=
    ⟨_, "cells".toList, rfl, by decide, reads_path (by decide)⟩
  have hup : Prints (.path ⟨1, .item, [.key "name"]⟩) (.mustache "../name".toList) :=
    prints_path rfl (by decide) (by decide) (reads_path (by decide))
  have hthis : Prints (.path ⟨0, .item, []⟩) (.mustache "this".toList) :=
    prints_path rfl (by decide) (by decide) (reads_path (by decide))
  have hname : Prints (.path ⟨0, .item, [.key "name"]⟩) (.mustache "name".toList) :=
    prints_path rfl (by decide) (by decide) (reads_path (by decide))
  have hunless : Closes "unless" (.mustache "/unless".toList) :=
    ⟨_, "unless".toList, rfl, by decide, by decide⟩
  have heach : Closes "each" (.mustache "/each".toList) :=
    ⟨_, "each".toList, rfl, by decide, by decide⟩
  have helse : Splits (.mustache "else".toList) := ⟨_, rfl, by decide⟩
  have hcomma : Part.Written (.choose true (.path ⟨0, .binding "@first", []⟩)
      (.last ⟨",", by decide⟩) .none) _ := .choose hfirst .last .none hunless
  have hpart : cellsPart.Written _ :=
    .each hcells (.cons (.output hup) (.cons (.output hthis) .last))
      (.some helse (.cons (.output hname) .last)) heach
  have hwritten : rowsBody.Written _ :=
    .cons (.each hrows (.cons hcomma (.cons hpart .last)) .none heach) .last
  have hpieces : pieces rowsSource.toList =
      [.text [], .mustache "#each rows".toList, .text [], .mustache "#unless @first".toList,
        .text [','], .mustache "/unless".toList, .text [], .mustache "#each cells".toList,
        .text [], .mustache "../name".toList, .text [], .mustache "this".toList, .text [],
        .mustache "else".toList, .text [], .mustache "name".toList, .text [],
        .mustache "/each".toList, .text [], .mustache "/each".toList, .text []] := by
    decide
  rw [defaultRules_eq, applyAll_of_idle hidle, hpieces]
  exact hwritten

/-- Two rows, the second of which has no cells. -/
def rowsContext : Members :=
  [("rows", .list [.object [("name", .str "a"), ("cells", .list [.str "x", .str "y"])],
    .object [("name", .str "b"), ("cells", .list [])]])]

/-- In the body of the inner block the name is one scope up, and in its other part it is not. -/
theorem render_written_rows :
    rowsBody.Written (pieces (Rule.applyAll defaultRules rowsSource).toList)
      ∧ rowsBody.InScope 0 ∧ render defaultRules rowsSource rowsContext = .ok "axay,b" := by
  have hscope : rowsBody.InScope 0 := by
    simp [rowsBody, cellsPart, Body.InScope, Part.InScope, Else.InScope, Term.InScope]
  refine ⟨rowsBody_written, hscope, ?_⟩
  rw [(render_written defaultRules rowsContext rowsBody_written).1 hscope]
  rfl

/-! ## Above the root -/

/-- A path that drops one scope more than there are. -/
def aboveSource : String :=
  "\x7b\x7b#each rows\x7d\x7d\x7b\x7b../../title\x7d\x7d\x7b\x7b/each\x7d\x7d"

def aboveBody : Body :=
  .cons emptyText
    (.each (.path ⟨0, .item, [.key "rows"]⟩)
      (.cons emptyText (.output (.path ⟨2, .item, [.key "title"]⟩)) (.last emptyText)) .none)
    (.last emptyText)

def aboveContext : Members := [("title", .str "t"), ("rows", .list [.int 1])]

/-- With no scope left to drop, the interpreter reads the context, but the template is refused. -/
theorem render_above_root :
    aboveBody.Written (pieces (Rule.applyAll defaultRules aboveSource).toList)
      ∧ aboveBody.settled.eval aboveContext [] = .ok "t"
      ∧ render defaultRules aboveSource aboveContext =
        .error (.malformed (.aboveRoot "../../title")) := by
  have hidle : ∀ r ∈ Rule.builtIn, r.applies aboveSource.toList = false := by decide
  have hrows : Opens "each" (.path ⟨0, .item, [.key "rows"]⟩) (.mustache "#each rows".toList) :=
    ⟨_, "rows".toList, rfl, by decide, reads_path (by decide)⟩
  have htitle : Prints (.path ⟨2, .item, [.key "title"]⟩) (.mustache "../../title".toList) :=
    prints_path rfl (by decide) (by decide) (reads_path (by decide))
  have heach : Closes "each" (.mustache "/each".toList) :=
    ⟨_, "each".toList, rfl, by decide, by decide⟩
  have hwritten : aboveBody.Written _ :=
    .cons (.each hrows (.cons (.output htitle) .last) .none heach) .last
  have hpieces : pieces aboveSource.toList =
      [.text [], .mustache "#each rows".toList, .text [], .mustache "../../title".toList,
        .text [], .mustache "/each".toList, .text []] := by
    decide
  rw [defaultRules_eq, render, compile, applyAll_of_idle hidle, Tag.read, hpieces]
  exact ⟨hwritten, rfl, rfl⟩

end Formwork.Proofs
