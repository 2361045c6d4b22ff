import Formwork.Proofs.Template.Writing
import Formwork.Template.Node

/-!
# The form of a written template

The tags of a template nest into its form (`Body.nodes`). Texts are settled on the way:
an empty one leaves no node, the others have their lines settled, and the last one of the
whole template is shown without a line feed at its end.

As a part stands between any two texts, no two of them are joined, and what is settled can
be followed from the front: a text is settled by itself, and every other tag is left alone
(`settle_text`, `settle_cons`).
-/

namespace Formwork.Proofs

open Formwork Formwork.Template Formwork.Text

/-! ## Settling tags -/

/-- Whether a tag is a text. -/
def isTextTag : Tag → Bool
  | .text _ => true
  | _ => false

/-- Tags with their texts joined and settled. -/
def settle (tags : List Tag) : List Tag := settleTexts (joinTexts tags)

section Settling

variable {tag : Tag}

theorem settle_cons (h : isTextTag tag = false) (rest : List Tag) :
    settle (tag :: rest) = tag :: settle rest := by
  cases tag with
  | text s => cases h
  | _ => rfl

/-- A text before another tag is left out when it is empty, and has its lines settled otherwise. -/
theorem settle_before (h : isTextTag tag = false) (s : String) (rest : List Tag) :
    settle (.text s :: tag :: rest) =
      (if s.isEmpty then [] else [.text (settledText s)]) ++ settle (tag :: rest) := by
  have hjoin : joinTexts (.text s :: tag :: rest) =
      if s.isEmpty then joinTexts (tag :: rest)
      else .text s :: joinTexts (tag :: rest) := by
    cases tag with
    | text s => cases h
    | _ => rfl
  unfold settle
  rw [hjoin]
  split
  · rfl
  · cases tag with
    | text s => cases h
    | _ => rfl

/-- A text at the end may lose a line feed at its own end. -/
theorem settle_end (s : String) :
    settle [.text s] = if s.isEmpty then [] else [.text (settledEnd s)] := by
  unfold settle
  rw [joinTexts, joinTexts]
  split
  · rename_i s more heq
    cases heq
  · split
    · rfl
    · rw [settleTexts, settledEnd, apply_ite String.ofList]
      rfl

theorem settle_text (h : isTextTag tag = false) (t : PlainText) (rest : List Tag) :
    settle (.text t.text :: tag :: rest) =
      (if t.text.isEmpty then [] else [.text t.lines.text]) ++ settle (tag :: rest) :=
  settle_before h t.text rest

theorem settledEnd_plain (t : PlainText) : settledEnd t.text = t.final.text := by
  rw [settledEnd, t.plain, if_neg Bool.false_ne_true]
  simp [PlainText.final, PlainText.withoutFinalLine, PlainText.lines]

theorem settle_last (t : PlainText) :
    settle [.text t.text] =
      if t.text.isEmpty then [] else [.text t.final.text] := by
  rw [settle_end, settledEnd_plain]

end Settling

/-! ## The form of a template -/

/-- The node of a text that is shown as another one. An empty text has none. -/
def shownNodes (s shown : String) : List Node :=
  if s.isEmpty then [] else [.text shown]

def textNodes (t shown : PlainText) : List Node :=
  if t.text.isEmpty then [] else [.text shown.text]

mutual

/-- The nodes of a template inside these scopes, when so many have been opened before. -/
def Body.nodes (final : PlainText → PlainText) (scopes : List Nat) (opened : Nat) :
    Body → List Node
  | .last t => textNodes t (final t)
  | .cons t part rest =>
    textNodes t t.lines ++
      (part.node scopes opened :: rest.nodes final scopes (opened + part.eaches))

def Part.node (scopes : List Nat) (opened : Nat) : Part → Node
  | .output t => .output (t.expr scopes)
  | .choose negated condition body otherwise =>
    .choose negated (condition.expr scopes) (body.nodes PlainText.lines scopes opened)
      (otherwise.nodes scopes (opened + body.eaches))
  | .each items body otherwise =>
    .each (opened + 1) (items.expr scopes)
      (body.nodes PlainText.lines ((opened + 1) :: scopes) (opened + 1))
      (otherwise.nodes scopes (opened + 1 + body.eaches))

def Else.nodes (scopes : List Nat) (opened : Nat) : Else → List Node
  | .none => []
  | .some body => body.nodes PlainText.lines scopes opened

end

mutual

/-- The number literals of a term are well formed, so its form is. -/
theorem Term.check_expr (scopes : List Nat) : ∀ t : Term, (t.expr scopes).check = .ok ()
  | .call helper args => by
      rw [Term.expr, Expr.check]
      exact Term.check_exprs scopes args
  | .number text value h => by
      rw [Term.expr, Expr.check, h]
      rfl
  | .literal _ => rfl
  | .bool _ => rfl
  | .absent => rfl
  | .path _ => rfl

theorem Term.check_exprs (scopes : List Nat) :
    ∀ ts : List Term, Expr.checkAll (Term.exprs scopes ts) = .ok ()
  | [] => rfl
  | t :: ts => by
      rw [Term.exprs, Expr.checkAll, Term.check_expr scopes t]
      exact Term.check_exprs scopes ts

end

/-! ## Nesting tags -/

section Nesting

variable {blocks : List Unfinished} {nodes : List Node} {tag : Tag} {rest : List Tag}

/-- A text without marks is shown as it is. -/
theorem ofText_plain (t : PlainText) : Node.ofText t.text = .ok [.text t.text] := by
  rw [Node.ofText, t.plain, if_neg Bool.false_ne_true]

/-- A text that is shown as it is is put with the nodes read before. -/
theorem nest_shown {s shown : String} (h : Node.ofText shown = .ok [.text shown])
    (tags : List Tag) :
    nest blocks nodes ((if s.isEmpty then [] else [.text shown]) ++ tags) =
      nest blocks ((shownNodes s shown).reverse ++ nodes) tags := by
  unfold shownNodes
  split
  · rfl
  · rw [List.singleton_append, nest, h]
    rfl

theorem nest_text (h : isTextTag tag = false) (t : PlainText) :
    nest blocks nodes (settle (.text t.text :: tag :: rest)) =
      nest blocks ((textNodes t t.lines).reverse ++ nodes) (settle (tag :: rest)) := by
  rw [settle_text h]
  exact nest_shown (ofText_plain t.lines) _

/-- A part of a template never begins with a text. -/
theorem Part.tags_head (part : Part) (scopes : List Nat) (opened : Nat) :
    ∃ tag more, part.tags scopes opened = tag :: more ∧ isTextTag tag = false := by
  cases part with
  | output t => exact ⟨_, _, rfl, rfl⟩
  | choose negated condition body otherwise => exact ⟨_, _, rfl, rfl⟩
  | each items body otherwise => exact ⟨_, _, rfl, rfl⟩

/-- Neither does what ends a block. -/
theorem Else.tags_head (e : Else) (scopes : List Nat) (opened : Nat) (closing : Tag)
    (h : isTextTag closing = false) (rest : List Tag) :
    ∃ tag more, e.tags scopes opened ++ closing :: rest = tag :: more ∧ isTextTag tag = false := by
  cases e with
  | none => exact ⟨closing, rest, rfl, h⟩
  | some body => exact ⟨_, _, rfl, rfl⟩

/-- A text before a part is put with the nodes read before. -/
theorem nest_text_part (t : PlainText) (part : Part) (scopes : List Nat) (opened : Nat) :
    nest blocks nodes (settle (.text t.text :: (part.tags scopes opened ++ rest))) =
      nest blocks ((textNodes t t.lines).reverse ++ nodes)
        (settle (part.tags scopes opened ++ rest)) := by
  obtain ⟨tag, more, hpart, htag⟩ := part.tags_head scopes opened
  rw [hpart]
  exact nest_text htag t

/-- A closing tag finishes the innermost open block. -/
theorem nest_closing {closing : Tag} (h : closing = .closeIf ∨ closing = .closeEach)
    (u : Unfinished) (outer : List Unfinished) :
    nest (u :: outer) nodes (settle (closing :: rest)) =
      nest outer (u.finish nodes :: u.around) (settle rest) := by
  rcases h with rfl | rfl
  · rw [settle_cons rfl, nest]
  · rw [settle_cons rfl, nest]

theorem isTextTag_closing {closing : Tag} (h : closing = .closeIf ∨ closing = .closeEach) :
    isTextTag closing = false := by
  rcases h with rfl | rfl <;> rfl

/-- The tags of a block, seen from what ends it. -/
theorem append_closing {body other rest : List Tag} {closing : Tag} :
    body ++ (other ++ [closing]) ++ rest = body ++ (other ++ closing :: rest) := by
  simp

end Nesting

mutual

/-- **The tags of a template nest into its nodes**, whatever part of a template follows them. -/
theorem Body.nest_tags (scopes : List Nat) (opened : Nat) {tag : Tag}
    (h : isTextTag tag = false) (rest : List Tag) :
    ∀ (b : Body) (blocks : List Unfinished) (nodes : List Node),
    nest blocks nodes (settle (b.tags scopes opened ++ tag :: rest)) =
      nest blocks ((b.nodes PlainText.lines scopes opened).reverse ++ nodes)
        (settle (tag :: rest))
  | .last t, blocks, nodes => by
      rw [Body.tags, List.singleton_append, nest_text h, Body.nodes]
  | .cons t part more, blocks, nodes => by
      rw [Body.tags, List.cons_append, List.append_assoc, nest_text_part, Part.nest_tags,
        Body.nest_tags _ _ h rest more, Body.nodes]
      simp

theorem Part.nest_tags (scopes : List Nat) (opened : Nat) (rest : List Tag) :
    ∀ (part : Part) (blocks : List Unfinished) (nodes : List Node),
    nest blocks nodes (settle (part.tags scopes opened ++ rest)) =
      nest blocks (part.node scopes opened :: nodes) (settle rest)
  | .output t, blocks, nodes => by
      rw [Part.tags, List.singleton_append, settle_cons rfl, nest, Term.check_expr]
      rfl
  | .choose negated condition body otherwise, blocks, nodes => by
      obtain ⟨tag, more, htags, htag⟩ :=
        otherwise.tags_head scopes (opened + body.eaches) .closeIf rfl rest
      rw [Part.tags, List.cons_append, settle_cons rfl, nest, Term.check_expr, append_closing,
        htags]
      refine (Body.nest_tags scopes opened htag more body _ []).trans ?_
      rw [List.append_nil, ← htags]
      exact Else.nest_tags scopes _ (.inl rfl) rest _ nodes blocks _ otherwise
  | .each items body otherwise, blocks, nodes => by
      obtain ⟨tag, more, htags, htag⟩ :=
        otherwise.tags_head scopes (opened + 1 + body.eaches) .closeEach rfl rest
      rw [Part.tags, List.cons_append, settle_cons rfl, nest, Term.check_expr, append_closing,
        htags]
      refine (Body.nest_tags _ (opened + 1) htag more body _ []).trans ?_
      rw [List.append_nil, ← htags]
      exact Else.nest_tags scopes _ (.inr rfl) rest _ nodes blocks _ otherwise

/-- What ends a block finishes it, with the part that was read before as its body. -/
theorem Else.nest_tags (scopes : List Nat) (opened : Nat) {closing : Tag}
    (h : closing = .closeIf ∨ closing = .closeEach) (rest : List Tag) (opener : Opener)
    (around : List Node) (outer : List Unfinished) (first : List Node) : ∀ e : Else,
    nest (⟨opener, none, around⟩ :: outer) first.reverse
        (settle (e.tags scopes opened ++ closing :: rest)) =
      nest outer (opener.node first (e.nodes scopes opened) :: around) (settle rest)
  | .none => by
      rw [Else.tags, List.nil_append, nest_closing h, Unfinished.finish, List.reverse_reverse]
      rfl
  | .some body => by
      rw [Else.tags, List.cons_append, settle_cons rfl, nest, List.reverse_reverse]
      rw [Body.nest_tags scopes opened (isTextTag_closing h) rest body, nest_closing h,
        List.append_nil, Unfinished.finish, List.reverse_reverse]
      rfl

end

/-- Outside all blocks, the end of a template is the end of its nodes. -/
theorem Body.nest_final (scopes : List Nat) : ∀ (b : Body) (opened : Nat) (nodes : List Node),
    nest [] nodes (settle (b.tags scopes opened)) =
      .ok (nodes.reverse ++ b.nodes PlainText.final scopes opened)
  | .last t, opened, nodes => by
      rw [Body.tags, settle_last, Body.nodes, textNodes]
      split
      · rw [nest, List.append_nil]
      · rw [nest, ofText_plain]
        show Except.ok _ = _
        rw [List.reverse_append, List.reverse_reverse]
  | .cons t part more, opened, nodes => by
      rw [Body.tags, nest_text_part, Part.nest_tags, Body.nest_final scopes more, Body.nodes]
      simp

/-- **The form of a written template** is made of its nodes. -/
theorem Body.ofTags_tags (b : Body) (scopes : List Nat) (opened : Nat) :
    Node.ofTags (b.tags scopes opened) = .ok (b.nodes PlainText.final scopes opened) :=
  b.nest_final scopes opened []

end Formwork.Proofs
