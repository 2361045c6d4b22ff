import Formwork.Proofs.Template.Spelling
import Formwork.Proofs.Text.Runs
import Formwork.Template.Tag

/-!
# How templates are written

Cutting a source at its mustaches gives texts and mustaches in turn. They write a template
(`Body.Written`) when they nest as it does: a block has an opening mustache, what writes
its body, an `else` mustache before its other part if there is one, and a closing mustache.

The reader goes over them without knowing the tree. It keeps the blocks that are open and
counts the scopes that were ever opened, so the form of a template depends on both
(`Body.tags`). While the body of an `each` block is read its level is in front of the
others; it is not any more once the `else` has been read. That is all the reader knows of
the chain of scopes, and a path of the template is in scope exactly if it finds its level.
-/

namespace Formwork.Proofs

open Formwork Formwork.Template Formwork.Text

/-! ## Mustaches -/

/-- The kind of a block that chooses. -/
def chooseKind (negated : Bool) : BlockKind := if negated then .unless else .whenTrue

/-- The mustache opens a block of this name for the term. -/
def Opens (name : String) (t : Term) (p : Piece) : Prop :=
  ∃ content tail, p = .mustache content ∧ trim content = '#' :: (name.toList ++ ' ' :: tail)
    ∧ t.Reads (String.ofList (trim tail))

/-- The mustache closes a block of this name. -/
def Closes (name : String) (p : Piece) : Prop :=
  ∃ content tail, p = .mustache content ∧ trim content = '/' :: tail
    ∧ String.ofList (trim tail) = name

/-- The mustache splits a block. -/
def Splits (p : Piece) : Prop :=
  ∃ content, p = .mustache content ∧ trim content = "else".toList

/-- The mustache prints the term. -/
def Prints (t : Term) (p : Piece) : Prop :=
  ∃ content, p = .mustache content
    ∧ (∀ c ∈ (trim content).head?, c ≠ '#' ∧ c ≠ '/' ∧ c ≠ '!')
    ∧ trim content ≠ "else".toList ∧ t.Reads (String.ofList (trim content))

/-! ## Templates -/

mutual

/-- The pieces write the template. -/
inductive Body.Written : Body → List Piece → Prop where
  | last {t : PlainText} : Body.Written (.last t) [.text t.text.toList]
  | cons {t : PlainText} {part : Part} {rest : Body} {own more : List Piece} :
      Part.Written part own → Body.Written rest more →
      Body.Written (.cons t part rest) (.text t.text.toList :: (own ++ more))

/-- The pieces write the part. -/
inductive Part.Written : Part → List Piece → Prop where
  | output {t : Term} {p : Piece} : Prints t p → Part.Written (.output t) [p]
  | choose {negated : Bool} {condition : Term} {body : Body} {otherwise : Else}
      {opening closing : Piece} {inner other : List Piece} :
      Opens (chooseKind negated).name condition opening → Body.Written body inner →
      Else.Written otherwise other → Closes (chooseKind negated).name closing →
      Part.Written (.choose negated condition body otherwise)
        (opening :: (inner ++ (other ++ [closing])))
  | each {items : Term} {body : Body} {otherwise : Else}
      {opening closing : Piece} {inner other : List Piece} :
      Opens "each" items opening → Body.Written body inner →
      Else.Written otherwise other → Closes "each" closing →
      Part.Written (.each items body otherwise) (opening :: (inner ++ (other ++ [closing])))

/-- The pieces write the other part of a block, with the mustache that splits it. -/
inductive Else.Written : Else → List Piece → Prop where
  | none : Else.Written .none []
  | some {body : Body} {split : Piece} {inner : List Piece} :
      Splits split → Body.Written body inner → Else.Written (.some body) (split :: inner)

end

/-! ## Tags -/

mutual

/-- How many scopes reading a template opens. -/
def Body.eaches : Body → Nat
  | .last _ => 0
  | .cons _ part rest => part.eaches + rest.eaches

def Part.eaches : Part → Nat
  | .output _ => 0
  | .choose _ _ body otherwise => body.eaches + otherwise.eaches
  | .each _ body otherwise => 1 + body.eaches + otherwise.eaches

def Else.eaches : Else → Nat
  | .none => 0
  | .some body => body.eaches

end

mutual

/-- The tags of a template inside these scopes, when so many have been opened before. -/
def Body.tags (scopes : List Nat) (opened : Nat) : Body → List Tag
  | .last t => [.text t.text]
  | .cons t part rest =>
    .text t.text :: (part.tags scopes opened ++ rest.tags scopes (opened + part.eaches))

/-- The body of an `each` block is inside one scope more, and its other part is not. -/
def Part.tags (scopes : List Nat) (opened : Nat) : Part → List Tag
  | .output t => [.output (t.expr scopes)]
  | .choose negated condition body otherwise =>
    .openIf negated (condition.expr scopes) ::
      (body.tags scopes opened ++ (otherwise.tags scopes (opened + body.eaches) ++ [.closeIf]))
  | .each items body otherwise =>
    .openEach (opened + 1) (items.expr scopes) ::
      (body.tags ((opened + 1) :: scopes) (opened + 1) ++
        (otherwise.tags scopes (opened + 1 + body.eaches) ++ [.closeEach]))

def Else.tags (scopes : List Nat) (opened : Nat) : Else → List Tag
  | .none => []
  | .some body => .otherwise :: body.tags scopes opened

end

/-! ## Reading one mustache -/

section Mustaches

variable {r : Template.Reading} {t : Term} {p : Piece}

/-- A block is opened as its name says, unless the expression behind it is refused. -/
theorem openBlock_choose {tail : List Char} (negated : Bool)
    (h : t.Reads (String.ofList (trim tail))) :
    Refuses (t.InScope r.scopes.length)
      (r.openBlock ((chooseKind negated).name.toList ++ ' ' :: tail))
      (.ok (.openIf negated (t.expr r.scopes), r.enter (chooseKind negated))) := by
  have hne : (trim tail).isEmpty = false := by simpa using h.ne_nil
  have hname : ' ' ∉ (chooseKind negated).name.toList := by
    cases negated <;> decide
  refine .eq_trans ?_ (h.read.map fun e => (Tag.openIf negated e, r.enter (chooseKind negated)))
  unfold Template.Reading.openBlock
  rw [span_ne_append hname]
  cases negated with
  | false => simp [chooseKind, BlockKind.name, hne, bind_ok_eq_map]
  | true => simp [chooseKind, BlockKind.name, hne, bind_ok_eq_map]

/-- The items of an `each` block are read outside the scope that it makes. -/
theorem openBlock_each {tail : List Char} (h : t.Reads (String.ofList (trim tail))) :
    Refuses (t.InScope r.scopes.length) (r.openBlock ("each".toList ++ ' ' :: tail))
      (.ok (.openEach (r.opened + 1) (t.expr r.scopes),
        ⟨⟨.each (r.opened + 1), false⟩ :: r.blocks, r.opened + 1⟩)) := by
  have hne : (trim tail).isEmpty = false := by simpa using h.ne_nil
  refine .eq_trans ?_ (h.read.map fun e => (Tag.openEach (r.opened + 1) e,
    (⟨⟨.each (r.opened + 1), false⟩ :: r.blocks, r.opened + 1⟩ : Template.Reading)))
  unfold Template.Reading.openBlock
  rw [span_ne_append (by decide)]
  simp [hne, bind_ok_eq_map, Template.Reading.enter]

theorem Opens.step_choose {negated : Bool} (h : Opens (chooseKind negated).name t p) :
    Refuses (t.InScope r.scopes.length) (r.step p)
      (.ok (some (.openIf negated (t.expr r.scopes)), r.enter (chooseKind negated))) := by
  obtain ⟨content, tail, rfl, htrim, hreads⟩ := h
  rw [Template.Reading.step, htrim]
  exact (openBlock_choose negated hreads).map fun opened => (some opened.1, opened.2)

theorem Opens.step_each (h : Opens "each" t p) :
    Refuses (t.InScope r.scopes.length) (r.step p)
      (.ok (some (.openEach (r.opened + 1) (t.expr r.scopes)),
        ⟨⟨.each (r.opened + 1), false⟩ :: r.blocks, r.opened + 1⟩)) := by
  obtain ⟨content, tail, rfl, htrim, hreads⟩ := h
  rw [Template.Reading.step, htrim]
  exact (openBlock_each hreads).map fun opened => (some opened.1, opened.2)

theorem Closes.step {b : OpenBlock} {outer : List OpenBlock} {opened : Nat}
    (h : Closes b.kind.name p) :
    (Template.Reading.mk (b :: outer) opened).step p =
      .ok (some b.kind.closingTag, ⟨outer, opened⟩) := by
  obtain ⟨content, tail, rfl, htrim, hname⟩ := h
  rw [Template.Reading.step, htrim]
  simp [Template.Reading.closeBlock, hname, Except.map]

theorem Splits.step {b : OpenBlock} {outer : List OpenBlock} {opened : Nat} (h : Splits p) :
    (Template.Reading.mk (b :: outer) opened).step p =
      .ok (some .otherwise, ⟨{ b with split := true } :: outer, opened⟩) := by
  obtain ⟨content, rfl, htrim⟩ := h
  rw [Template.Reading.step, htrim]
  rfl

theorem Prints.step (h : Prints t p) :
    Refuses (t.InScope r.scopes.length) (r.step p) (.ok (some (.output (t.expr r.scopes)), r)) := by
  obtain ⟨content, rfl, hhead, helse, hreads⟩ := h
  refine .eq_trans ?_ (hreads.read.map fun e => (some (Tag.output e), r))
  rw [Template.Reading.step]
  generalize trim content = cs at hhead helse
  have helse' : (cs == "else".toList) = false := by simpa using helse
  split
  · exact absurd rfl (hhead _ rfl).1
  · exact absurd rfl (hhead _ rfl).2.1
  · exact absurd rfl (hhead _ rfl).2.2
  · rw [helse', if_neg Bool.false_ne_true]

end Mustaches

/-! ## Reading a template -/

/-- Tags put before those that are read later. -/
def prepend (tags : List Tag) (later : Except SyntaxError (List Tag)) :
    Except SyntaxError (List Tag) :=
  later.map (tags ++ ·)

theorem prepend_prepend (tags more : List Tag) (later : Except SyntaxError (List Tag)) :
    prepend tags (prepend more later) = prepend (tags ++ more) later := by
  cases later with
  | error e => rfl
  | ok ts => exact congrArg Except.ok (List.append_assoc ..).symm

/-- What is refused later is refused. -/
theorem Refuses.prepend {P : Prop} {later later' : Except SyntaxError (List Tag)}
    (h : Refuses P later later') (tags : List Tag) :
    Refuses P (prepend tags later) (prepend tags later') :=
  h.map _

/-- A mustache that is refused is where the reading ends; otherwise it goes on behind its tag. -/
theorem tags_cons {P : Prop} {r r' : Template.Reading} {p : Piece} {tag : Tag} (rest : List Piece)
    (h : Refuses P (r.step p) (.ok (some tag, r'))) :
    Refuses P (r.tags (p :: rest)) (prepend [tag] (r'.tags rest)) := by
  rw [Template.Reading.tags]
  exact (h.bind _).trans_eq (bind_ok_eq_map ..)

theorem tags_cons_eq {r r' : Template.Reading} {p : Piece} {tag : Tag} (rest : List Piece)
    (h : r.step p = .ok (some tag, r')) :
    r.tags (p :: rest) = prepend [tag] (r'.tags rest) :=
  (tags_cons rest (.of_eq h)).1 trivial

theorem step_text (r : Template.Reading) (s : String) :
    r.step (.text s.toList) = .ok (some (.text s), r) := by
  rw [Template.Reading.step, String.ofList_toList]

/-- A closing mustache is the first of what follows a block. -/
theorem append_closed {opening closing : Piece} {inner other rest : List Piece} :
    opening :: (inner ++ (other ++ [closing])) ++ rest =
      opening :: (inner ++ (other ++ closing :: rest)) := by
  simp

mutual

/-- **What writes a template is read as its tags.** The reader is left with the blocks that were
open, and has counted the scopes of the template. -/
theorem Body.Written.tags {b : Body} {ps : List Piece} (h : b.Written ps)
    (r : Template.Reading) (rest : List Piece) :
    Refuses (b.InScope r.scopes.length) (r.tags (ps ++ rest))
      (prepend (b.tags r.scopes r.opened)
        ((Template.Reading.mk r.blocks (r.opened + b.eaches)).tags rest)) := by
  cases h with
  | @last t => exact .of_eq (tags_cons_eq rest (step_text r t.text))
  | @cons t part more own tail hpart hmore =>
      have hown := hpart.tags r (tail ++ rest)
      have htail := hmore.tags ⟨r.blocks, r.opened + part.eaches⟩ rest
      rw [List.cons_append, List.append_assoc, tags_cons_eq _ (step_text r t.text)]
      refine ((hown.trans (htail.prepend _)).prepend _).trans_eq ?_
      rw [prepend_prepend, prepend_prepend, Body.eaches, Nat.add_assoc]
      rfl

theorem Part.Written.tags {part : Part} {ps : List Piece} (h : part.Written ps)
    (r : Template.Reading) (rest : List Piece) :
    Refuses (part.InScope r.scopes.length) (r.tags (ps ++ rest))
      (prepend (part.tags r.scopes r.opened)
        ((Template.Reading.mk r.blocks (r.opened + part.eaches)).tags rest)) := by
  cases h with
  | output hp => exact tags_cons rest hp.step
  | @choose negated cond body otherwise opening closing inner other hopen hbody hother hclose =>
      have hopened := tags_cons (inner ++ (other ++ closing :: rest)) (hopen.step_choose (r := r))
      have hinner := hbody.tags (r.enter (chooseKind negated)) (other ++ closing :: rest)
      have hrest := hother.tags_closed hclose r.blocks (r.opened + body.eaches) rest
      have hscopes : (r.enter (chooseKind negated)).scopes = r.scopes := by
        cases negated <;> rfl
      have hclosing : (chooseKind negated).closingTag = .closeIf := by
        cases negated <;> rfl
      rw [hscopes] at hinner
      rw [hclosing] at hrest
      rw [append_closed]
      refine (hopened.trans ((hinner.trans (hrest.prepend _)).prepend _)).trans_eq ?_
      rw [prepend_prepend, prepend_prepend, Part.eaches, ← Nat.add_assoc]
      rfl
  | @each items body otherwise opening closing inner other hopen hbody hother hclose =>
      have hopened := tags_cons (inner ++ (other ++ closing :: rest)) (hopen.step_each (r := r))
      have hinner := hbody.tags ⟨⟨.each (r.opened + 1), false⟩ :: r.blocks, r.opened + 1⟩
        (other ++ closing :: rest)
      have hclose : Closes (BlockKind.each (r.opened + 1)).name closing := hclose
      have hrest := hother.tags_closed hclose r.blocks (r.opened + 1 + body.eaches) rest
      rw [append_closed]
      refine (hopened.trans ((hinner.trans (hrest.prepend _)).prepend _)).trans_eq ?_
      rw [prepend_prepend, prepend_prepend, Part.eaches, ← Nat.add_assoc, ← Nat.add_assoc]
      rfl

theorem Else.Written.tags_closed {e : Else} {ps : List Piece} (h : e.Written ps)
    {kind : BlockKind} {closing : Piece} (hclose : Closes kind.name closing)
    (outer : List OpenBlock) (opened : Nat) (rest : List Piece) :
    Refuses (e.InScope (Template.Reading.mk outer opened).scopes.length)
      ((Template.Reading.mk (⟨kind, false⟩ :: outer) opened).tags (ps ++ closing :: rest))
      (prepend (e.tags (Template.Reading.mk outer opened).scopes opened ++ [kind.closingTag])
        ((Template.Reading.mk outer (opened + e.eaches)).tags rest)) := by
  cases h with
  | none => exact .of_eq (tags_cons_eq rest hclose.step)
  | @some body split inner hsplit hbody =>
      -- the level of the block is behind the `else`, if it has one
      have hscopes : (Template.Reading.mk (⟨kind, true⟩ :: outer) opened).scopes =
          (Template.Reading.mk outer opened).scopes := by
        cases kind <;> rfl
      have hinner := hbody.tags ⟨⟨kind, true⟩ :: outer, opened⟩ (closing :: rest)
      have hclosed : (Template.Reading.mk (⟨kind, true⟩ :: outer) (opened + body.eaches)).tags
          (closing :: rest) =
          prepend [kind.closingTag]
            ((Template.Reading.mk outer (opened + body.eaches)).tags rest) :=
        tags_cons_eq rest hclose.step
      rw [hscopes] at hinner
      rw [List.cons_append, tags_cons_eq _ hsplit.step]
      refine (hinner.prepend _).trans_eq ?_
      rw [hclosed, prepend_prepend, prepend_prepend]
      rfl

end

/-- **A template is read as its tags**, or refused if a path of it is out of scope. -/
theorem Body.Written.read {b : Body} {source : String} (h : b.Written (pieces source.toList)) :
    Refuses (b.InScope 0) (Tag.read source) (.ok (b.tags [] 0)) := by
  have hread := h.tags Template.Reading.start []
  rw [List.append_nil] at hread
  refine hread.trans_eq ?_
  show Except.ok (b.tags [] 0 ++ []) = _
  rw [List.append_nil]

end Formwork.Proofs
