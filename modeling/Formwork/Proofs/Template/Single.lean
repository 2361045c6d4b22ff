import Formwork.Proofs.Template.Mustache

/-!
# A template that is one expression

Many templates of a form are nothing but one expression in braces, with no braces in it and no
blanks at its ends (`Sole`). No lexical rule has anything to do in such a template, and it is cut as
its only mustache, so that each use of it is a use of the value of the expression: as a text the
value is shown, as a condition what is shown is looked up among the words for true, and as a value
it is the value itself.
-/

namespace Formwork.Proofs

open Formwork Formwork.Template Formwork.Text

/-- The template that is a mustache with this inside. -/
def mustache (content : List Char) : String :=
  String.ofList ('{' :: '{' :: (content ++ ['}', '}']))

/-- A template is such a mustache by its characters. -/
theorem eq_mustache {s : String} {content : List Char}
    (h : s.toList = '{' :: '{' :: (content ++ ['}', '}'])) : s = mustache content := by
  rw [← String.toList_inj, mustache, String.toList_ofList]
  exact h

/-- What is inside a template that is one expression. -/
structure Sole (content : List Char) : Prop where
  nonempty : content ≠ []
  noBrace : ∀ c ∈ content, c ∉ ['{', '}']
  start : ∀ c, content.head? = some c → isBlank c = false ∧ c ∉ ['#', '/', '!', '~']
  ending : ∀ c, content.getLast? = some c → isBlank c = false ∧ c ≠ '~'
  notElse : content ≠ "else".toList

namespace Sole

variable {content : List Char}

theorem trimmed (h : Sole content) : trim content = content :=
  trim_of_no_blank (fun c hc => (h.start c hc).1) fun c hc => (h.ending c hc).1

theorem bare (h : Sole content) : Bare content where
  opening := fun hmem => h.noBrace _ hmem (by decide)
  closing := fun hmem => h.noBrace _ hmem (by decide)
  comment := fun hhead => (h.start _ hhead).2 (by decide)
  start := fun hhead => (h.start _ hhead).2 (by decide)
  ending := fun hlast => (h.ending _ hlast).2 rfl

theorem plain (h : Sole content) : Plain content := by
  have hinside : ∀ x, x ∉ content → ¬ [x, x] <:+: trim content := by
    intro x hx hin
    rw [h.trimmed] at hin
    exact hx (hin.subset (List.mem_cons_self ..))
  refine ⟨hinside _ h.bare.opening, hinside _ h.bare.closing, ?_, ?_, ?_⟩
  · rw [h.trimmed]
    exact h.nonempty
  · rw [h.trimmed]
    intro c hc
    have hsigns := (h.start c hc).2
    simp only [List.mem_cons, List.not_mem_nil, or_false, not_or] at hsigns
    exact ⟨hsigns.1, hsigns.2.1, hsigns.2.2.1⟩
  · rw [h.trimmed]
    exact h.notElse

theorem opens (content : List Char) : opensMustache (mustache content) = true := by
  have hsource : (mustache content).toList = '{' :: '{' :: (content ++ ['}', '}']) :=
    String.toList_ofList
  rw [opensMustache, contains, occursIn_iff, hsource]
  exact ⟨[], content ++ ['}', '}'], rfl⟩

/-- The lexical rules leave the template as it is. -/
theorem applyAll_eq (h : Sole content) :
    Rule.applyAll defaultRules (mustache content) = mustache content := by
  have hclear : Clear "".toList := ⟨by decide, by decide, by decide, by decide⟩
  have hapart : Apart "" [⟨content, ⟨0, .item, []⟩, ""⟩] :=
    ⟨hclear, List.forall_mem_singleton.mpr ⟨h.bare, hclear⟩⟩
  have hwritten : written "" [⟨content, ⟨0, .item, []⟩, ""⟩] = (mustache content).toList := by
    simp [written, mustache]
  rw [defaultRules_eq]
  refine applyAll_of_idle ?_
  rw [← hwritten]
  exact builtIn_idle hapart

/-- The template is its only mustache. -/
theorem cut (h : Sole content) :
    Cut (Rule.applyAll defaultRules (mustache content)).toList [] content [] where
  whole := by
    rw [h.applyAll_eq, mustache, String.toList_ofList]
    rfl
  blank := List.forall_mem_nil _
  closing := h.trimmed ▸ h.plain.closing
  ending := fun hlast => h.bare.closing (List.mem_of_mem_getLast? hlast)
  tail := List.forall_mem_nil _

/-- What is shown is what the expression puts out. -/
theorem render_eq (h : Sole content) (context : Members) :
    render defaultRules (mustache content) context =
      outputExpression (String.ofList content) context := by
  have hshown : ∀ out : String, settledText (String.ofList []) ++ out ++
      settledEnd (String.ofList []) = out := by
    intro out
    rw [settledText_of_empty rfl, settledEnd_of_empty rfl, String.empty_append,
      String.append_empty]
  rw [h.cut.render_eq h.plain.head h.plain.notElse, h.trimmed]
  simp only [hshown]
  cases outputExpression (String.ofList content) context <;> rfl

/-- The template is a single expression. -/
theorem singleExpression?_eq (h : Sole content) :
    singleExpression? (Rule.applyAll defaultRules (mustache content)) =
      some (String.ofList content) := by
  rw [h.applyAll_eq]
  exact singleExpression?_mustache.mpr ⟨h.plain, by rw [h.trimmed]⟩

theorem clear (h : Sole content) :
    overruns (Rule.applyAll defaultRules (mustache content)) = false := by
  refine Bool.eq_false_iff.mpr fun hover => ?_
  -- the last character of the inside would be a brace
  obtain ⟨front, hfront⟩ := List.isSuffixOf_iff_suffix.mp (Bool.and_eq_true_iff.mp hover).2
  rw [h.applyAll_eq, mustache, String.toList_ofList, trim_mustache] at hfront
  have hbrace : '}' ∈ content := by
    have hwhole : front ++ ['}'] ++ ['}', '}'] = '{' :: '{' :: content ++ ['}', '}'] := by
      simpa using hfront
    have htail : front ++ ['}'] = '{' :: '{' :: content := List.append_cancel_right hwhole
    have hmem : '}' ∈ '{' :: '{' :: content := htail ▸ List.mem_append_right _ (by decide)
    simpa using hmem
  exact h.bare.closing hbrace

/-- As a value, the template is that of its expression. -/
theorem evaluateNative_eq (h : Sole content) (context : Members) :
    evaluateNative defaultRules (.str (mustache content)) context =
      (evaluateExpression (String.ofList content) context).toOption.getD .null := by
  exact evaluateNative_single context (opens content) h.singleExpression?_eq

variable {context : Members} {v : Value}

/-- As a text, the template is what its expression shows. -/
theorem evaluateText_eq (h : Sole content)
    (hvalue : evaluateExpression (String.ofList content) context = .ok v) :
    evaluateText defaultRules (mustache content) context = v.render.toOption.getD "" := by
  rw [evaluateText, if_pos (opens content), h.render_eq, outputExpression_of_value hvalue]
  cases v.render <;> rfl

/-- As a condition, the template holds when what its expression shows is a word for true. -/
theorem holds_eq (h : Sole content)
    (hvalue : evaluateExpression (String.ofList content) context = .ok v) :
    holds defaultRules (mustache content) context = v.render.toOption.any isTrueText := by
  rw [holds, h.render_eq, outputExpression_of_value hvalue]
  cases v.render <;> rfl

end Sole

/-- An expression that is read, and is well formed, has the value of its operand. -/
theorem evaluateExpression_of_read {source : String} {e : Expr} {o : Operand} {context : Members}
    (hread : Expr.read [] source = .ok e) (hcheck : e.check = .ok ())
    (heval : e.eval ⟨context, []⟩ = .ok o) :
    evaluateExpression source context = .ok o.toValue := by
  rw [evaluateExpression, hread, mapError_ok, ok_bind, hcheck, mapError_ok, ok_bind, heval]
  rfl

/-- A key of the context leads to what is under it. -/
theorem follow_key {name : String} (h : name.toList.any Operand.isWide = false) (env : Env) :
    env.follow ⟨.context, [.key name]⟩ = .ofOption (Ordered.get? env.context name) := by
  show (if name.toList.any Operand.isWide = true then Operand.undefined else _) = _
  rw [h, if_neg Bool.false_ne_true]

end Formwork.Proofs
