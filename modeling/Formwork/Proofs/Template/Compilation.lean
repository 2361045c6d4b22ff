import Formwork.Document.FieldKind
import Formwork.Proofs.Template.Acceptance
import Formwork.Proofs.Template.Literal
import Mathlib.Data.List.TakeWhile

/-!
# Which printed forms are block templates

Not everything that is printed is a well-formed block template. A number literal is printed
as it was written, but block templates know no leading zeros; and a block may be split as
often as one likes, but theirs only once. So their grammar is that of the printed forms
with two conditions more (`compilableTags`), and a template compiles exactly if its tags
satisfy them, as long as no text ends its own protection.

Which turn a tag is does not depend on the conditions, so the tags can be followed turn by
turn while they are nested (`nest_ok_iff`). Texts are no turns, so it does not matter how
they are settled before.
-/

namespace Formwork.Template

mutual

/-- The number literals of an expression. -/
def Expr.numbers : Expr → List String
  | .call _ args => Expr.numbersOf args
  | .number text => [text]
  | _ => []

/-- The number literals of the arguments. -/
def Expr.numbersOf : List Expr → List String
  | [] => []
  | e :: es => e.numbers ++ Expr.numbersOf es

end

/-- The expression in a tag. -/
def Tag.expr? : Tag → Option Expr
  | .output e => some e
  | .openIf _ e => some e
  | .openEach _ e => some e
  | _ => none

end Formwork.Template

namespace Formwork.Proofs

open Formwork Formwork.Template Formwork.Text

/-! ## Number literals -/

/-- Number literals of block templates, without a sign. -/
inductive UnsignedForm : List Char → Prop where
  | zeros {n : Nat} : n ≤ Numeral.maxDigits → UnsignedForm (List.replicate n '0')
  | integer {first : Char} {rest : List Char} :
      '1' ≤ first → first ≤ '9' → '.' ∉ rest → (first :: rest).length ≤ Numeral.maxDigits →
      UnsignedForm (first :: rest)
  | decimal {cs : List Char} : '.' ∈ cs → (∀ c ∈ cs, c.toNat < 128) → UnsignedForm cs

/-- The text is a number literal of block templates. -/
def WellFormedNumber (text : String) : Prop :=
  UnsignedForm (NumericText.dropMinus text.toList)

/-- The number literals of the tag are well formed. -/
def WellFormedTag (tag : Tag) : Prop :=
  ∀ e ∈ tag.expr?, ∀ text ∈ e.numbers, WellFormedNumber text

section Numbers

variable {tag : Tag}

/-- Without a point a literal is an integer. -/
theorem integer_ok_iff {negative : Bool} {cs : List Char} (hpoint : '.' ∉ cs) :
    (∃ v, unsignedNumber negative cs = .ok v) ↔
      ((∀ c ∈ cs, c = '0') ∨ ∃ first rest, cs = first :: rest ∧ '1' ≤ first ∧ first ≤ '9')
        ∧ cs.length ≤ Numeral.maxDigits := by
  have hall : ∀ c ∈ cs, (c != '.') = true := by
    intro c hc
    rw [bne_iff_ne]
    rintro rfl
    exact hpoint hc
  have hspan : cs.span (· != '.') = (cs, []) := by
    rw [List.span_eq_takeWhile_dropWhile, List.takeWhile_eq_self_iff.mpr hall,
      List.dropWhile_eq_nil_iff.mpr hall]
  have hleading : (cs.head?.any fun c => '1' ≤ c && c ≤ '9') = true ↔
      ∃ first rest, cs = first :: rest ∧ '1' ≤ first ∧ first ≤ '9' := by
    cases cs <;> simp
  have hzeros : cs.all (· == '0') = true ↔ ∀ c ∈ cs, c = '0' := by simp
  rw [← hleading, ← hzeros, unsignedNumber, hspan]
  dsimp only
  split
  · rename_i hform
    rw [Bool.and_eq_true, Bool.not_eq_true', Bool.not_eq_true'] at hform
    simp [hform]
  · rename_i hform
    rw [Bool.and_eq_true, Bool.not_eq_true', Bool.not_eq_true', not_and_or, Bool.not_eq_false,
      Bool.not_eq_false] at hform
    split
    · rename_i hlong
      simp [Nat.not_le.mpr hlong]
    · rename_i hlong
      exact ⟨fun _ => ⟨hform.symm, Nat.not_lt.mp hlong⟩, fun _ => ⟨_, rfl⟩⟩

/-- With a point it is a decimal. -/
theorem decimal_ok_iff {negative : Bool} {whole fraction : List Char} (hpoint : '.' ∉ whole) :
    (∃ v, unsignedNumber negative (whole ++ '.' :: fraction) = .ok v) ↔
      ∀ c ∈ whole ++ '.' :: fraction, c.toNat < 128 := by
  have hascii : ((whole ++ fraction).all fun c => c.toNat < 128) = true ↔
      ∀ c ∈ whole ++ '.' :: fraction, c.toNat < 128 := by
    have hdot : '.'.toNat < 128 := by decide
    simp only [List.all_eq_true, decide_eq_true_eq, List.forall_mem_append, List.forall_mem_cons]
    exact ⟨fun ⟨hfront, hbehind⟩ => ⟨hfront, hdot, hbehind⟩,
      fun ⟨hfront, _, hbehind⟩ => ⟨hfront, hbehind⟩⟩
  rw [← hascii, unsignedNumber, span_ne_append hpoint]
  dsimp only
  split
  · rename_i hform
    simp [hform]
  · rename_i hform
    simp [hform]

theorem unsignedNumber_ok_iff {negative : Bool} {cs : List Char} :
    (∃ v, unsignedNumber negative cs = .ok v) ↔ UnsignedForm cs := by
  by_cases hpoint : '.' ∈ cs
  · obtain ⟨whole, fraction, hcs, hwhole⟩ := List.eq_append_cons_of_mem hpoint
    rw [hcs, decimal_ok_iff hwhole, ← hcs]
    constructor
    · exact .decimal hpoint
    · intro h
      cases h with
      | zeros => simp at hpoint
      | integer hone hnine hrest =>
          rcases List.mem_cons.mp hpoint with rfl | hpoint
          · exact absurd hone (by decide)
          · exact absurd hpoint hrest
      | decimal _ hascii => exact hascii
  · rw [integer_ok_iff hpoint]
    constructor
    · rintro ⟨hzeros | ⟨first, rest, rfl, hone, hnine⟩, hlength⟩
      · rw [List.eq_replicate_of_mem hzeros]
        exact .zeros hlength
      · exact .integer hone hnine (List.not_mem_of_not_mem_cons hpoint) hlength
    · intro h
      cases h with
      | zeros hlength =>
          exact ⟨.inl fun c hc => List.eq_of_mem_replicate hc, by simpa using hlength⟩
      | integer hone hnine _ hlength => exact ⟨.inr ⟨_, _, rfl, hone, hnine⟩, hlength⟩
      | decimal hpoint' => exact absurd hpoint' hpoint

theorem numberLiteral_ok_iff {text : String} :
    (∃ v, numberLiteral text = .ok v) ↔ WellFormedNumber text := by
  unfold numberLiteral WellFormedNumber
  split
  · rename_i rest hsign
    rw [hsign]
    exact unsignedNumber_ok_iff
  · rename_i hsign
    rw [NumericText.dropMinus.eq_2 _ hsign]
    exact unsignedNumber_ok_iff

mutual

theorem Expr.check_eq_ok_iff : ∀ e : Expr,
    e.check = .ok () ↔ ∀ text ∈ e.numbers, WellFormedNumber text
  | .call _ args => by
      rw [Expr.check, Expr.numbers]
      exact Expr.checkAll_eq_ok_iff args
  | .number text => by
      rw [Expr.check, Expr.numbers, List.forall_mem_singleton, ← numberLiteral_ok_iff, map_eq_ok]
      simp
  | .literal _ => by simp [Expr.check, Expr.numbers]
  | .bool _ => by simp [Expr.check, Expr.numbers]
  | .absent => by simp [Expr.check, Expr.numbers]
  | .reference _ => by simp [Expr.check, Expr.numbers]

theorem Expr.checkAll_eq_ok_iff : ∀ es : List Expr,
    Expr.checkAll es = .ok () ↔ ∀ text ∈ Expr.numbersOf es, WellFormedNumber text
  | [] => by simp [Expr.checkAll, Expr.numbersOf]
  | e :: es => by
      rw [Expr.checkAll, Expr.numbersOf, List.forall_mem_append, ← Expr.check_eq_ok_iff e,
        ← Expr.checkAll_eq_ok_iff es, bind_unit_eq_ok]

end

theorem wellFormedTag_of_none (h : tag.expr? = none) : WellFormedTag tag := by
  intro e he
  rw [h] at he
  cases he

theorem wellFormedTag_iff {e : Expr} (h : tag.expr? = some e) :
    WellFormedTag tag ↔ e.check = .ok () := by
  rw [WellFormedTag, h, Expr.check_eq_ok_iff]
  simp

end Numbers

/-! ## Turns -/

/-- Printed forms that are block templates: no block is split again, and number literals are well
formed. -/
def compilableTags : Brackets Tag (List Nat) (Option Nat) where
  plain scopes tag := printedTags.plain scopes tag ∧ WellFormedTag tag
  opens scopes level? tag := printedTags.opens scopes level? tag ∧ WellFormedTag tag
  inside := printedTags.inside
  splits again tag := printedTags.splits again tag ∧ again = false
  closes := printedTags.closes

section Turns

variable {base : List Nat} {blocks blocks' blocks'' : List (Option Nat × Bool)} {tag : Tag}
  {rest : List Tag}

theorem scopeInside_compilableTags :
    scopeInside compilableTags base blocks = scopeInside printedTags base blocks := by
  induction blocks with
  | nil => rfl
  | cons b outer ih =>
      obtain ⟨level?, split⟩ := b
      cases split with
      | true => exact ih
      | false => exact congrArg (printedTags.inside level?) ih

/-- A tag is one turn only. -/
theorem turn_unique (h : Turn printedTags base blocks tag blocks')
    (h' : Turn printedTags base blocks tag blocks'') : blocks' = blocks'' := by
  cases tag <;> cases h <;> cases h' <;> simp_all [printedTags]

/-- **A turn is one of block templates if the number literals of the tag are well formed, and no block
is split again.** -/
theorem turn_compilable_iff : Turn compilableTags base blocks tag blocks' ↔
    Turn printedTags base blocks tag blocks' ∧ WellFormedTag tag
      ∧ (tag = .otherwise → ∀ b ∈ blocks.head?, b.2 = false) := by
  constructor
  · intro h
    cases h with
    | plain ha =>
        rw [scopeInside_compilableTags] at ha
        refine ⟨.plain ha.1, ha.2, ?_⟩
        rintro rfl
        exact ha.1.elim
    | opened ha =>
        rw [scopeInside_compilableTags] at ha
        refine ⟨.opened ha.1, ha.2, ?_⟩
        rintro rfl
        exact ha.1.elim
    | closed ha =>
        have hnone : tag.expr? = none := by
          cases tag <;> first | rfl | exact False.elim ha
        refine ⟨.closed ha, wellFormedTag_of_none hnone, ?_⟩
        rintro rfl
        exact ha.elim
    | split ha =>
        obtain ⟨rfl, hagain⟩ := ha
        refine ⟨.split rfl, wellFormedTag_of_none rfl, fun _ b hb => ?_⟩
        rw [← Option.mem_some.mp hb]
        exact hagain
  · rintro ⟨h, hform, hagain⟩
    cases h with
    | plain ha =>
        refine .plain ⟨?_, hform⟩
        rwa [scopeInside_compilableTags]
    | opened ha =>
        refine .opened ⟨?_, hform⟩
        rwa [scopeInside_compilableTags]
    | closed ha => exact .closed ha
    | split ha => exact .split ⟨ha, hagain ha _ rfl⟩

theorem completes_cons_of_turn (hturn : Turn printedTags base blocks tag blocks') :
    Completes compilableTags base blocks (tag :: rest) ↔
      Turn compilableTags base blocks tag blocks' ∧ Completes compilableTags base blocks' rest := by
  rw [completes_cons_iff]
  constructor
  · rintro ⟨other, hother, hrest⟩
    rw [turn_unique hturn (turn_compilable_iff.mp hother).1]
    exact ⟨hother, hrest⟩
  · rintro ⟨hown, hrest⟩
    exact ⟨blocks', hown, hrest⟩

end Turns

/-! ## Nesting turn by turn -/

/-- Whether the blocks whose closing tags have not been read are split. -/
def splitBlocks (us : List Unfinished) : List Bool := us.map fun u => u.body?.isSome

section Nesting

variable {base : List Nat} {blocks blocks' : List (Option Nat × Bool)} {us : List Unfinished}
  {tag : Tag}

/-- A tag is nested if its turn is one of block templates, and what is behind it is nested. -/
theorem nest_turn (nodes : List Node) (rest : List Tag)
    (hblocks : splitBlocks us = blocks.map Prod.snd) (htext : KeepsProtection (tag :: rest))
    (hturn : Turn printedTags base blocks tag blocks') :
    ∃ us' nodes', splitBlocks us' = blocks'.map Prod.snd ∧
      ((∃ out, nest us nodes (tag :: rest) = .ok out) ↔
        Turn compilableTags base blocks tag blocks' ∧ ∃ out, nest us' nodes' rest = .ok out) := by
  rw [turn_compilable_iff]
  have hturn' := hturn
  cases hturn with
  | plain ha =>
      cases tag with
      | text s =>
          have hform : WellFormedTag (.text s) := wellFormedTag_of_none rfl
          refine ⟨us, .text s :: nodes, hblocks, ?_⟩
          rw [nest, ofText_of_not_end (htext s (List.mem_cons_self ..))]
          simp [hturn', hform, ok_bind]
      | output e =>
          refine ⟨us, .output e :: nodes, hblocks, ?_⟩
          rw [nest, wellFormedTag_iff rfl]
          simp [hturn', bind_unit_eq_ok]
      | _ => exact ha.elim
  | opened ha =>
      cases tag with
      | openIf negated e =>
          obtain ⟨rfl, -⟩ := ha
          refine ⟨⟨.choose negated e, none, nodes⟩ :: us, [], congrArg (List.cons false) hblocks, ?_⟩
          rw [nest, wellFormedTag_iff rfl]
          simp [hturn', bind_unit_eq_ok]
      | openEach level e =>
          obtain ⟨rfl, -⟩ := ha
          refine ⟨⟨.each level e, none, nodes⟩ :: us, [], congrArg (List.cons false) hblocks, ?_⟩
          rw [nest, wellFormedTag_iff rfl]
          simp [hturn', bind_unit_eq_ok]
      | _ => exact ha.elim
  | @closed level? split outer _ ha =>
      obtain ⟨u, outer', rfl, -, houter⟩ := List.map_eq_cons_iff.mp hblocks
      refine ⟨outer', u.finish nodes :: u.around, houter, ?_⟩
      cases tag with
      | closeIf =>
          have hform : WellFormedTag .closeIf := wellFormedTag_of_none rfl
          simp [nest, hturn', hform]
      | closeEach =>
          have hform : WellFormedTag .closeEach := wellFormedTag_of_none rfl
          simp [nest, hturn', hform]
      | _ => exact ha.elim
  | @split level? split outer _ ha =>
      obtain ⟨⟨opener, body?, around⟩, outer', rfl, hsplit, houter⟩ :=
        List.map_eq_cons_iff.mp hblocks
      obtain rfl : tag = .otherwise := ha
      have hform : WellFormedTag .otherwise := wellFormedTag_of_none rfl
      cases body? with
      | none =>
          refine ⟨⟨opener, some nodes.reverse, around⟩ :: outer', [],
            congrArg (List.cons true) houter, ?_⟩
          obtain rfl : split = false := hsplit.symm
          simp [nest, hturn', hform]
      | some body =>
          refine ⟨⟨opener, some body, around⟩ :: outer', [], congrArg (List.cons true) houter, ?_⟩
          obtain rfl : split = true := hsplit.symm
          simp [nest]

/-- **Nested tags compile as far as their turns are those of block templates.** -/
theorem nest_ok_iff {nodes : List Node} {tags : List Tag}
    (h : Completes printedTags base blocks tags)
    (hblocks : splitBlocks us = blocks.map Prod.snd)
    (htexts : KeepsProtection tags) :
    (∃ out, nest us nodes tags = .ok out) ↔ Completes compilableTags base blocks tags := by
  induction tags generalizing us nodes blocks with
  | nil =>
      obtain rfl := completes_nil_iff.mp h
      simp [nest, completes_nil_iff]
  | cons tag rest ih =>
      obtain ⟨blocks', hturn, hrest⟩ := completes_cons_iff.mp h
      obtain ⟨us', nodes', hblocks', hstep⟩ :=
        nest_turn nodes rest hblocks htexts hturn
      have hrest' : KeepsProtection rest := fun s hs => htexts s (List.mem_cons_of_mem _ hs)
      rw [completes_cons_of_turn hturn, hstep, ih hrest hblocks' hrest']

end Nesting

/-! ## Settled texts -/

section Settled

variable {base : List Nat} {blocks : List (Option Nat × Bool)} {tags : List Tag} {s : String}

/-- The tags that are no texts. -/
def withoutTexts (tags : List Tag) : List Tag := tags.filter fun tag => !isTextTag tag

theorem withoutTexts_text (s : String) (tags : List Tag) :
    withoutTexts (.text s :: tags) = withoutTexts tags := rfl

theorem withoutTexts_joinTexts (tags : List Tag) :
    withoutTexts (joinTexts tags) = withoutTexts tags := by
  induction tags with
  | nil => rfl
  | cons tag rest ih =>
      cases tag with
      | text s =>
          rw [joinTexts, withoutTexts_text]
          split
          · rename_i t more hjoin
            rw [hjoin, withoutTexts_text] at ih
            split <;> exact ih
          · split <;> exact ih
      | _ => exact congrArg (List.cons _) ih

theorem withoutTexts_settleTexts (tags : List Tag) :
    withoutTexts (settleTexts tags) = withoutTexts tags := by
  fun_induction settleTexts tags with
  | case1 => rfl
  | case2 => rfl
  | case3 s rest _ ih => exact ih
  | case4 tag rest _ _ ih =>
      rw [withoutTexts, withoutTexts, List.filter_cons, List.filter_cons]
      split
      · exact congrArg (List.cons tag) ih
      · exact ih

/-- Texts make no turns. -/
theorem completes_withoutTexts_iff {B : Brackets Tag (List Nat) (Option Nat)}
    (htext : ∀ {s blocks blocks'}, Turn B base blocks (.text s) blocks' ↔ blocks = blocks') :
    Completes B base blocks (withoutTexts tags) ↔ Completes B base blocks tags := by
  induction tags generalizing blocks with
  | nil => exact Iff.rfl
  | cons tag rest ih =>
      rw [completes_cons_iff]
      cases tag with
      | text s => simp [withoutTexts_text, htext, ih]
      | _ =>
          refine completes_cons_iff.trans (exists_congr fun blocks' => ?_)
          rw [← ih]
          rfl

theorem turn_text_iff {blocks' : List (Option Nat × Bool)} :
    Turn printedTags base blocks (.text s) blocks' ↔ blocks = blocks' := by
  have hplain : Turn printedTags base blocks (.text s) blocks := .plain trivial
  constructor
  · exact turn_unique hplain
  · rintro rfl
    exact hplain

theorem turn_compilable_text_iff {blocks' : List (Option Nat × Bool)} :
    Turn compilableTags base blocks (.text s) blocks' ↔ blocks = blocks' := by
  have hform : WellFormedTag (.text s) := wellFormedTag_of_none rfl
  rw [turn_compilable_iff, turn_text_iff]
  simp [hform]

/-- How texts are settled says nothing about the blocks. -/
theorem completes_settle_iff {B : Brackets Tag (List Nat) (Option Nat)}
    (htext : ∀ {s blocks blocks'}, Turn B base blocks (.text s) blocks' ↔ blocks = blocks') :
    Completes B base blocks (settle tags) ↔ Completes B base blocks tags := by
  rw [← completes_withoutTexts_iff htext, settle, withoutTexts_settleTexts,
    withoutTexts_joinTexts, completes_withoutTexts_iff htext]

end Settled

/-! ## Compilation -/

section Compilation

variable {rules : List Template.Rule} {template : String} {tags : List Tag}

/--
**What is translated compiles if no block is split again and number literals are well formed.**

This is so unless a text holds the end of a protection.
-/
theorem compiles_iff (hread : Tag.read (Rule.applyAll rules template) = .ok tags)
    (htexts : ∀ s, Tag.text s ∈ tags → holdsProtectionEnd s.toList = false) :
    (∃ nodes, compile rules template = .ok nodes) ↔ Nested compilableTags [] tags := by
  have hnested : Completes printedTags [] [] (settle tags) :=
    (completes_settle_iff turn_text_iff).mpr (completes_of_tags hread)
  have hcompile : (∃ nodes, compile rules template = .ok nodes) ↔
      ∃ nodes, Node.ofTags tags = .ok nodes := by
    rw [compile, hread]
    exact exists_congr fun nodes => mapError_eq_ok
  rw [hcompile, ← completes_nil_blocks_iff, ← completes_settle_iff turn_compilable_text_iff]
  exact nest_ok_iff hnested rfl (keepsProtection_settle htexts)

end Compilation

/-- A block that is split once, with a number that has no leading zero. -/
def splitOnceSource : String :=
  "\x7b\x7b#if a\x7d\x7d\x7b\x7b10\x7d\x7d\x7b\x7belse\x7d\x7d%\x7d\x7b\x7b/if\x7d\x7d"

def splitOnceTags : List Tag :=
  [.text "", .openIf false (.reference ⟨.context, [.key "a"]⟩), .text "", .output (.number "10"),
    .text "", .otherwise, .text "%\x7d", .closeIf, .text ""]

theorem compiles_iff_split_once :
    Tag.read (Rule.applyAll defaultRules splitOnceSource) = .ok splitOnceTags
      ∧ (∃ nodes, compile defaultRules splitOnceSource = .ok nodes)
      ∧ Nested compilableTags [] splitOnceTags := by
  have hread : Tag.read (Rule.applyAll defaultRules splitOnceSource) = .ok splitOnceTags := by
    rw [defaultRules_eq]
    rfl
  have htexts : ∀ s, Tag.text s ∈ splitOnceTags → holdsProtectionEnd s.toList = false := by
    intro s hs
    have hs : s = "" ∨ s = "%\x7d" := by
      simpa [splitOnceTags, or_comm] using hs
    rcases hs with rfl | rfl <;> decide
  have hcompile : ∃ nodes, compile defaultRules splitOnceSource = .ok nodes := by
    rw [defaultRules_eq]
    have hsome : (compile Rule.builtIn splitOnceSource).toOption.isSome = true := by
      decide +kernel
    obtain ⟨nodes, hnodes⟩ := Option.isSome_iff_exists.mp hsome
    exact ⟨nodes, toOption_eq_some_iff.mp hnodes⟩
  exact ⟨hread, hcompile, (compiles_iff hread htexts).mp hcompile⟩

/-- A leading zero is let through by the translator, and is no number literal of block templates. -/
theorem leading_zero_not_compiled :
    printedForm defaultRules "\x7b\x7b007\x7d\x7d" = .ok "\x7b\x7b 007 \x7d\x7d"
      ∧ compile defaultRules "\x7b\x7b007\x7d\x7d" = .error (.illFormed .numberLiteral) := by
  have hread : Tag.read (Rule.applyAll defaultRules "\x7b\x7b007\x7d\x7d") =
      .ok [.text "", .output (.number "007"), .text ""] := by
    rw [defaultRules_eq]
    rfl
  refine ⟨?_, ?_⟩
  · rw [printedForm, hread]
    rfl
  · rw [compile, hread]
    rfl

end Formwork.Proofs
