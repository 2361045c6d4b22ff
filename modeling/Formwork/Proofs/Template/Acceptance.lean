import Formwork.Proofs.Answer
import Formwork.Proofs.Template.Brackets
import Formwork.Proofs.Template.PlainText
import Formwork.Proofs.Template.Translatable
import Formwork.Proofs.Template.Writing
import Formwork.Template.Evaluator
import Mathlib.Data.List.Nodup

/-!
# Which sources are translated

A source is cut at its mustaches, each from the leftmost pair of opening braces to the
nearest pair of closing ones (`Cuts`), and is translated exactly if what it is cut into is
nested: every block is closed by its own name, every `else` is inside a block, and every
expression can be read with the scopes around it (`mustaches`).

The reader keeps the open blocks, and the scopes that are open are those of the blocks whose
`else` has not been read. One piece is read exactly if it leads from the open blocks to some
others (`turn_of_step`, `step_of_turn`), so a whole source is read exactly if what it is cut
into is the rest of the open blocks, of which there are none at the start.

The tags that are read nest in the same way (`printedTags`), and each loop has a level of
its own, which nothing outside its body refers to.

The reader is given a stack without an end, so calls and blocks may be nested to any depth.
-/

namespace Formwork.Template

/-- The level of the scope that a block makes. -/
def BlockKind.level? : BlockKind → Option Nat
  | .each level => some level
  | _ => none

/-- The level of the scope that a tag opens. -/
def Tag.level? : Tag → Option Nat
  | .openEach level _ => some level
  | _ => none

end Formwork.Template

namespace Formwork.Proofs

open Formwork Formwork.Template Formwork.Text

/-! ## Cutting -/

/-- The needle is found first behind this front. -/
structure Leftmost (needle cs front behind : List Char) : Prop where
  found : cs = front ++ (needle ++ behind)
  first : ∀ front' behind', cs = front' ++ (needle ++ behind') → front.length ≤ front'.length

/-- The pieces that a source is cut into. -/
inductive Cuts : List Char → List Piece → Prop where
  | text {cs : List Char} :
      (∀ content, ¬ "\x7b\x7b".toList ++ (content ++ "\x7d\x7d".toList) <:+: cs) →
      Cuts cs [.text cs]
  | mustache {cs before opened content after : List Char} {ps : List Piece} :
      Leftmost "\x7b\x7b".toList cs before opened →
      Leftmost "\x7d\x7d".toList opened content after →
      Cuts after ps → Cuts cs (.text before :: .mustache content :: ps)

section Cutting

variable {needle cs front behind : List Char} {ps : List Piece}

theorem Leftmost.unique {front' behind' : List Char} (h : Leftmost needle cs front behind)
    (h' : Leftmost needle cs front' behind') : front = front' ∧ behind = behind' := by
  have hlength : front.length = front'.length :=
    Nat.le_antisymm (h.first _ _ h'.found) (h'.first _ _ h.found)
  obtain ⟨hfront, hrest⟩ := List.append_inj (h.found.symm.trans h'.found) hlength
  exact ⟨hfront, List.append_cancel_left hrest⟩

theorem leftmost_of_breakAt? (h : breakAt? needle cs = some (front, behind)) :
    Leftmost needle cs front behind := by
  induction cs generalizing front with
  | nil =>
      rw [breakAt?] at h
      split at h
      · rename_i hempty
        cases h
        rw [List.isEmpty_iff] at hempty
        exact ⟨by rw [hempty]; rfl, fun _ _ _ => Nat.zero_le _⟩
      · cases h
  | cons c cs ih =>
      rw [breakAt?] at h
      cases hstarts : needle.isPrefixOf? (c :: cs) with
      | some rest =>
          rw [hstarts] at h
          cases h
          have hfound := List.append_eq_of_isPrefixOf?_eq_some hstarts
          exact ⟨hfound.symm, fun _ _ _ => Nat.zero_le _⟩
      | none =>
          rw [hstarts] at h
          obtain ⟨⟨before, after⟩, hrest, heq⟩ := Option.map_eq_some_iff.mp h
          cases heq
          obtain ⟨hfound, hfirst⟩ := ih hrest
          refine ⟨by rw [hfound]; rfl, fun front' behind' hother => ?_⟩
          cases front' with
          | nil =>
              -- the needle is not in front
              rw [← Option.not_isSome_iff_eq_none, List.isSome_isPrefixOf?_eq_isPrefixOf,
                List.isPrefixOf_iff_prefix] at hstarts
              exact absurd ⟨behind', hother.symm⟩ hstarts
          | cons c' front' =>
              have htail := (List.cons.inj hother).2
              exact Nat.succ_le_succ (hfirst front' behind' htail)

theorem breakAt?_eq_none_iff : breakAt? needle cs = none ↔ ¬ needle <:+: cs := by
  rw [← occursIn_iff, occursIn, Option.not_isSome_iff_eq_none]

/-- Behind the leftmost opening there is all that any mustache needs. -/
theorem Leftmost.closing_infix {closing : List Char} (h : Leftmost needle cs front behind)
    {content : List Char} (hin : needle ++ (content ++ closing) <:+: cs) : closing <:+: behind := by
  obtain ⟨before, after, hcs⟩ := hin
  have hcs : cs = before ++ (needle ++ (content ++ (closing ++ after))) := by simp [← hcs]
  have hfirst := h.first _ _ hcs
  have hbehind : behind <:+ cs := ⟨front ++ needle, by rw [h.found, List.append_assoc]⟩
  have hclosing : closing ++ after <:+ cs :=
    ⟨before ++ (needle ++ content), by rw [hcs]; simp only [List.append_assoc]⟩
  have hlength : (closing ++ after).length ≤ behind.length := by
    have hfound := congrArg List.length (h.found.symm.trans hcs)
    simp only [List.length_append] at hfound ⊢
    omega
  have hsuffix := List.suffix_of_suffix_length_le hclosing hbehind hlength
  exact (List.prefix_append closing after).isInfix.trans hsuffix.isInfix

theorem Cuts.unique {ps' : List Piece} (h : Cuts cs ps) (h' : Cuts cs ps') : ps = ps' := by
  have hmustache : ∀ {cs before opened content after : List Char},
      Leftmost "\x7b\x7b".toList cs before opened → Leftmost "\x7d\x7d".toList opened content after →
      "\x7b\x7b".toList ++ (content ++ "\x7d\x7d".toList) <:+: cs := by
    intro cs before opened content after hopen hclose
    exact ⟨before, after, by rw [hopen.found, hclose.found]; simp⟩
  induction h generalizing ps' with
  | text hnone =>
      cases h' with
      | text => rfl
      | mustache hopen hclose _ => exact absurd (hmustache hopen hclose) (hnone _)
  | mustache hopen hclose _ ih =>
      cases h' with
      | text hnone => exact absurd (hmustache hopen hclose) (hnone _)
      | mustache hopen' hclose' hrest' =>
          obtain ⟨rfl, rfl⟩ := hopen.unique hopen'
          obtain ⟨rfl, rfl⟩ := hclose.unique hclose'
          rw [ih hrest']

/-- **A source is cut into its pieces.** -/
theorem cuts_pieces (cs : List Char) : Cuts cs (pieces cs) := by
  have hgo : ∀ fuel : Nat, cs.length ≤ fuel → Cuts cs (pieces.go fuel cs) := by
    intro fuel
    induction fuel generalizing cs with
    | zero =>
        intro hlength
        rw [List.length_eq_zero_iff.mp (Nat.le_zero.mp hlength)]
        exact .text fun content => by simp
    | succ fuel ih =>
        intro hlength
        rw [pieces.go]
        cases hopen : breakAt? "\x7b\x7b".toList cs with
        | none =>
            refine .text fun content hin => breakAt?_eq_none_iff.mp hopen ?_
            exact (List.prefix_append _ _).isInfix.trans hin
        | some found =>
            obtain ⟨before, opened⟩ := found
            have hopening := leftmost_of_breakAt? hopen
            dsimp only
            cases hclose : breakAt? "\x7d\x7d".toList opened with
            | none =>
                refine .text fun content hin => breakAt?_eq_none_iff.mp hclose ?_
                exact hopening.closing_infix hin
            | some found =>
                obtain ⟨content, after⟩ := found
                have hclosing := leftmost_of_breakAt? hclose
                refine .mustache hopening hclosing (ih after ?_)
                have hcs := congrArg List.length hopening.found
                have hopened := congrArg List.length hclosing.found
                simp only [List.length_append] at hcs hopened
                have htwo : "\x7b\x7b".toList.length = 2 := rfl
                omega
  exact hgo cs.length (Nat.le_refl _)

end Cutting

/-! ## Mustaches and tags -/

/-- The mustache opens a block of this name, and this is behind the name. -/
def OpensWith (name source : String) (p : Piece) : Prop :=
  ∃ content tail, p = .mustache content ∧ trim content = '#' :: (name.toList ++ ' ' :: tail)
    ∧ trim tail ≠ [] ∧ String.ofList (trim tail) = source

/-- The mustache is a comment. -/
def Comments (p : Piece) : Prop :=
  ∃ content tail, p = .mustache content ∧ trim content = '!' :: tail

/-- The mustache prints this. -/
def Shows (source : String) (p : Piece) : Prop :=
  ∃ content, p = .mustache content
    ∧ (∀ c ∈ (trim content).head?, c ≠ '#' ∧ c ≠ '/' ∧ c ≠ '!')
    ∧ trim content ≠ "else".toList ∧ String.ofList (trim content) = source

/-- Sources: what is in scope is counted, and the kind of a block is its name. -/
def mustaches : Brackets Piece Nat String where
  plain depth p :=
    (∃ cs, p = .text cs) ∨ Comments p ∨ ∃ source, Shows source p ∧ Translatable depth source
  opens depth name p :=
    name ∈ ["if", "unless", "each"] ∧ ∃ source, OpensWith name source p ∧ Translatable depth source
  inside name depth := if name = "each" then depth + 1 else depth
  splits _ p := Splits p
  closes name p := Closes name p

/-- Printed forms: in scope are the levels of the loops, and the kind of a block is the level that it
makes. -/
def printedTags : Brackets Tag (List Nat) (Option Nat) where
  plain scopes
    | .text _ => True
    | .output e => e.levels ⊆ scopes
    | _ => False
  opens scopes level?
    | .openIf _ e => level? = none ∧ e.levels ⊆ scopes
    | .openEach level e => level? = some level ∧ e.levels ⊆ scopes
    | _ => False
  inside level? scopes := level?.toList ++ scopes
  splits _ tag := tag = .otherwise
  closes level?
    | .closeIf => level? = none
    | .closeEach => level?.isSome
    | _ => False

/-! ## Reading one piece -/

/-- What reading one piece does, when it succeeds. -/
inductive Takes (r : Template.Reading) : Piece → Option Tag → Template.Reading → Prop where
  | text {cs : List Char} : Takes r (.text cs) (some (.text (String.ofList cs))) r
  | comment {p : Piece} : Comments p → Takes r p none r
  | output {p : Piece} {source : String} {e : Expr} :
      Shows source p → Expr.read r.scopes source = .ok e → Takes r p (some (.output e)) r
  | choose {p : Piece} {source : String} {e : Expr} (negated : Bool) :
      OpensWith (chooseKind negated).name source p → Expr.read r.scopes source = .ok e →
      Takes r p (some (.openIf negated e)) (r.enter (chooseKind negated))
  | each {p : Piece} {source : String} {e : Expr} :
      OpensWith "each" source p → Expr.read r.scopes source = .ok e →
      Takes r p (some (.openEach (r.opened + 1) e))
        ⟨⟨.each (r.opened + 1), false⟩ :: r.blocks, r.opened + 1⟩
  | close {p : Piece} {b : OpenBlock} {outer : List OpenBlock} :
      r.blocks = b :: outer → Closes b.kind.name p →
      Takes r p (some b.kind.closingTag) ⟨outer, r.opened⟩
  | split {p : Piece} {b : OpenBlock} {outer : List OpenBlock} :
      r.blocks = b :: outer → Splits p →
      Takes r p (some .otherwise) ⟨{ b with split := true } :: outer, r.opened⟩

section Steps

variable {r r' : Template.Reading} {p : Piece} {tag? : Option Tag}

/-- A name that something stands behind ends at a space. -/
theorem opener_eq {content : List Char}
    (h : trim ((content.span (· != ' ')).2.drop 1) ≠ []) :
    content = (content.span (· != ' ')).1 ++ ' ' :: (content.span (· != ' ')).2.drop 1 := by
  rw [List.span_eq_takeWhile_dropWhile] at h ⊢
  cases hdrop : content.dropWhile (· != ' ') with
  | nil =>
      rw [hdrop] at h
      exact absurd rfl h
  | cons c tail =>
      have hc : c = ' ' := by
        have hhead := List.head_dropWhile_not (· != ' ') (l := content) (by simp [hdrop])
        simpa [hdrop] using hhead
      rw [hc] at hdrop
      conv_lhs => rw [← List.takeWhile_append_dropWhile (p := (· != ' ')) (l := content), hdrop]
      rfl

theorem takes_of_openBlock {content rest : List Char} {tag : Tag}
    (htrim : trim content = '#' :: rest) (h : r.openBlock rest = .ok (tag, r')) :
    Takes r (.mustache content) (some tag) r' := by
  -- a block is opened by its name and what stands behind it
  have hopens : ∀ name : String, String.ofList (rest.span (· != ' ')).1 = name →
      ¬ (trim ((rest.span (· != ' ')).2.drop 1)).isEmpty →
      OpensWith name (String.ofList (trim ((rest.span (· != ' ')).2.drop 1)))
        (.mustache content) := by
    rintro name rfl hsome
    have hne := mt List.isEmpty_iff.mpr hsome
    refine ⟨content, _, rfl, ?_, hne, rfl⟩
    rw [htrim, String.toList_ofList, ← opener_eq hne]
  unfold Template.Reading.openBlock at h
  dsimp only at h
  split at h
  · rename_i hname
    split at h
    · cases h
    · rename_i hsome
      obtain ⟨e, he, heq⟩ := bind_eq_ok.mp h
      cases heq
      by_cases hunless : String.ofList (rest.span (· != ' ')).1 = "unless"
      · rw [if_pos (beq_iff_eq.mpr hunless), beq_iff_eq.mpr hunless]
        exact .choose true (hopens _ hunless hsome) he
      · have hif : String.ofList (rest.span (· != ' ')).1 = "if" := by
          rw [Bool.or_eq_true, beq_iff_eq, beq_iff_eq] at hname
          exact hname.resolve_right hunless
        rw [if_neg (by simpa using hunless), beq_eq_false_iff_ne.mpr hunless]
        exact .choose false (hopens _ hif hsome) he
  · split at h
    · rename_i heach
      split at h
      · cases h
      · rename_i hsome
        obtain ⟨e, he, heq⟩ := bind_eq_ok.mp h
        cases heq
        exact .each (hopens _ (beq_iff_eq.mp heach) hsome) he
    · cases h

theorem takes_of_closeBlock {content rest : List Char} {tag : Tag}
    (htrim : trim content = '/' :: rest) (h : r.closeBlock rest = .ok (tag, r')) :
    Takes r (.mustache content) (some tag) r' := by
  rw [Template.Reading.closeBlock] at h
  cases hblocks : r.blocks with
  | nil =>
      rw [hblocks] at h
      cases h
  | cons b outer =>
      rw [hblocks] at h
      dsimp only at h
      split at h
      · rename_i hname
        cases h
        exact .close hblocks ⟨content, rest, rfl, htrim, (beq_iff_eq.mp hname).symm⟩
      · cases h

theorem takes_of_splitBlock {tag : Tag} (hp : Splits p) (h : r.splitBlock = .ok (tag, r')) :
    Takes r p (some tag) r' := by
  rw [Template.Reading.splitBlock] at h
  cases hblocks : r.blocks with
  | nil =>
      rw [hblocks] at h
      cases h
  | cons b outer =>
      rw [hblocks] at h
      cases h
      exact .split hblocks hp

/-- **A piece that is read is one of these.** -/
theorem takes_of_step (h : r.step p = .ok (tag?, r')) : Takes r p tag? r' := by
  cases p with
  | text cs =>
      cases h
      exact .text
  | mustache content =>
      rw [Template.Reading.step] at h
      split at h
      · rename_i rest htrim
        obtain ⟨⟨tag, r''⟩, hopen, heq⟩ := map_eq_ok.mp h
        cases heq
        exact takes_of_openBlock htrim hopen
      · rename_i rest htrim
        obtain ⟨⟨tag, r''⟩, hclose, heq⟩ := map_eq_ok.mp h
        cases heq
        exact takes_of_closeBlock htrim hclose
      · rename_i rest htrim
        cases h
        exact .comment ⟨content, rest, rfl, htrim⟩
      · rename_i hopen hclose hcomment
        split at h
        · rename_i helse
          obtain ⟨⟨tag, r''⟩, hsplit, heq⟩ := map_eq_ok.mp h
          cases heq
          exact takes_of_splitBlock ⟨content, rfl, beq_iff_eq.mp helse⟩ hsplit
        · rename_i helse
          obtain ⟨e, he, heq⟩ := map_eq_ok.mp h
          cases heq
          refine .output ⟨content, rfl, fun c hc => ?_, fun hother => helse (beq_iff_eq.mpr hother),
            rfl⟩ he
          have htail : trim content = c :: (trim content).tail :=
            List.eq_cons_of_mem_head? hc
          refine ⟨?_, ?_, ?_⟩
          · rintro rfl
            exact hopen _ htail
          · rintro rfl
            exact hclose _ htail
          · rintro rfl
            exact hcomment _ htail

/-- What one piece can do, reading it does. -/
theorem Takes.step (h : Takes r p tag? r') : r.step p = .ok (tag?, r') := by
  cases h with
  | text => rfl
  | comment hp =>
      obtain ⟨content, tail, rfl, htrim⟩ := hp
      rw [Template.Reading.step, htrim]
      rfl
  | output hp he =>
      obtain ⟨content, rfl, hhead, helse, rfl⟩ := hp
      rw [Template.Reading.step]
      generalize trim content = cs at hhead helse he
      split
      · exact absurd rfl (hhead _ rfl).1
      · exact absurd rfl (hhead _ rfl).2.1
      · exact absurd rfl (hhead _ rfl).2.2
      · rw [if_neg (by simpa using helse), he]
        rfl
  | @choose _ _ e negated hp he =>
      obtain ⟨content, tail, rfl, htrim, hne, rfl⟩ := hp
      have hname : ' ' ∉ (chooseKind negated).name.toList := by
        cases negated <;> decide
      have hopen : r.openBlock ((chooseKind negated).name.toList ++ ' ' :: tail) =
          .ok (.openIf negated e, r.enter (chooseKind negated)) := by
        unfold Template.Reading.openBlock
        rw [span_ne_append hname]
        cases negated <;> simp [chooseKind, BlockKind.name, hne, he, bind, Except.bind]
      rw [Template.Reading.step, htrim]
      exact map_eq_ok.mpr ⟨_, hopen, rfl⟩
  | @each _ _ e hp he =>
      obtain ⟨content, tail, rfl, htrim, hne, rfl⟩ := hp
      have hopen : r.openBlock ("each".toList ++ ' ' :: tail) =
          .ok (.openEach (r.opened + 1) e,
            ⟨⟨.each (r.opened + 1), false⟩ :: r.blocks, r.opened + 1⟩) := by
        unfold Template.Reading.openBlock
        rw [span_ne_append (by decide)]
        simp [hne, he, bind, Except.bind, Template.Reading.enter]
      rw [Template.Reading.step, htrim]
      exact map_eq_ok.mpr ⟨_, hopen, rfl⟩
  | close hblocks hp =>
      obtain ⟨blocks, opened⟩ := r
      cases hblocks
      exact hp.step
  | split hblocks hp =>
      obtain ⟨blocks, opened⟩ := r
      cases hblocks
      exact hp.step

end Steps

/-! ## Turns -/

/-- The open blocks of a source: the name of each, and whether its `else` has been read. -/
def sourceBlocks (blocks : List OpenBlock) : List (String × Bool) :=
  blocks.map fun b => (b.kind.name, b.split)

/-- The open blocks of a printed form: the level that each makes, and whether it is split. -/
def printedBlocks (blocks : List OpenBlock) : List (Option Nat × Bool) :=
  blocks.map fun b => (b.kind.level?, b.split)

section Turns

variable {r r' : Template.Reading} {p : Piece} {tag? : Option Tag}

/-- The scopes of a source are as many as the scopes that are open. -/
theorem scopeInside_sourceBlocks :
    scopeInside mustaches 0 (sourceBlocks r.blocks) = r.scopes.length := by
  obtain ⟨blocks, opened⟩ := r
  induction blocks with
  | nil => rfl
  | cons b outer ih =>
      obtain ⟨kind, split⟩ := b
      cases split with
      | true => cases kind <;> exact ih
      | false => cases kind <;> first | exact ih | exact congrArg (· + 1) ih

theorem scopeInside_printedBlocks :
    scopeInside printedTags [] (printedBlocks r.blocks) = r.scopes := by
  obtain ⟨blocks, opened⟩ := r
  induction blocks with
  | nil => rfl
  | cons b outer ih =>
      obtain ⟨kind, split⟩ := b
      cases split with
      | true => cases kind <;> exact ih
      | false => cases kind <;> first | exact ih | exact congrArg (List.cons _) ih

/-- What is read leads from the open blocks to those that are open then. -/
theorem Takes.turn (h : Takes r p tag? r') :
    Turn mustaches 0 (sourceBlocks r.blocks) p (sourceBlocks r'.blocks) := by
  have hread : ∀ {source : String} {e : Expr}, Expr.read r.scopes source = .ok e →
      Translatable (scopeInside mustaches 0 (sourceBlocks r.blocks)) source := by
    intro source e he
    rw [scopeInside_sourceBlocks]
    exact read_ok_iff.mp ⟨e, he⟩
  cases h with
  | text => exact .plain (.inl ⟨_, rfl⟩)
  | comment hp => exact .plain (.inr (.inl hp))
  | output hp he => exact .plain (.inr (.inr ⟨_, hp, hread he⟩))
  | choose negated hp he =>
      refine .opened ⟨?_, _, hp, hread he⟩
      cases negated <;> simp [chooseKind, BlockKind.name]
  | each hp he => exact .opened ⟨by simp [BlockKind.name], _, hp, hread he⟩
  | close hblocks hp =>
      rw [hblocks]
      exact .closed hp
  | split hblocks hp =>
      rw [hblocks]
      exact .split hp

/-- What leads from the open blocks to others is read. -/
theorem takes_of_turn {blocks' : List (String × Bool)}
    (h : Turn mustaches 0 (sourceBlocks r.blocks) p blocks') :
    ∃ tag? r', Takes r p tag? r' ∧ sourceBlocks r'.blocks = blocks' := by
  have hread : ∀ {source : String},
      Translatable (scopeInside mustaches 0 (sourceBlocks r.blocks)) source →
      ∃ e, Expr.read r.scopes source = .ok e := by
    intro source hsource
    rw [scopeInside_sourceBlocks] at hsource
    exact read_ok_iff.mpr hsource
  -- the innermost of the open blocks
  have hinner : ∀ {name : String} {split : Bool} {outer : List (String × Bool)},
      sourceBlocks r.blocks = (name, split) :: outer →
      ∃ b rest, r.blocks = b :: rest ∧ b.kind.name = name ∧ sourceBlocks rest = outer := by
    intro name split outer heq
    obtain ⟨b, rest, hblocks, hb, hrest⟩ := List.map_eq_cons_iff.mp heq
    exact ⟨b, rest, hblocks, congrArg Prod.fst hb, hrest⟩
  generalize hblocks : sourceBlocks r.blocks = blocks at h
  cases h with
  | plain hp =>
      rcases hp with ⟨cs, rfl⟩ | hp | ⟨source, hp, hsource⟩
      · exact ⟨_, r, .text, hblocks⟩
      · exact ⟨_, r, .comment hp, hblocks⟩
      · rw [← hblocks] at hsource
        obtain ⟨e, he⟩ := hread hsource
        exact ⟨_, r, .output hp he, hblocks⟩
  | @opened _ name _ hp =>
      obtain ⟨hname, source, hp, hsource⟩ := hp
      rw [← hblocks] at hsource ⊢
      obtain ⟨e, he⟩ := hread hsource
      simp only [List.mem_cons, List.not_mem_nil, or_false] at hname
      rcases hname with rfl | rfl | rfl
      · exact ⟨_, _, .choose false hp he, rfl⟩
      · exact ⟨_, _, .choose true hp he, rfl⟩
      · exact ⟨_, _, .each hp he, rfl⟩
  | closed hp =>
      obtain ⟨b, rest, hb, rfl, rfl⟩ := hinner hblocks
      exact ⟨_, _, .close hb hp, rfl⟩
  | split hp =>
      obtain ⟨b, rest, hb, rfl, rfl⟩ := hinner hblocks
      exact ⟨_, _, .split hb hp, rfl⟩

/-- The tag that is read leads from the open blocks to those that are open then. -/
theorem Takes.printed {tag : Tag} (h : Takes r p (some tag) r') :
    Turn printedTags [] (printedBlocks r.blocks) tag (printedBlocks r'.blocks) := by
  have hread : ∀ {source : String} {e : Expr}, Expr.read r.scopes source = .ok e →
      e.levels ⊆ scopeInside printedTags [] (printedBlocks r.blocks) := by
    intro source e he
    rw [scopeInside_printedBlocks]
    exact levels_of_read he
  cases h with
  | text => exact .plain trivial
  | output hp he => exact .plain (hread he)
  | choose negated hp he =>
      cases negated with
      | false => exact .opened ⟨rfl, hread he⟩
      | true => exact .opened ⟨rfl, hread he⟩
  | each hp he => exact .opened ⟨rfl, hread he⟩
  | @close _ b outer hblocks hp =>
      rw [hblocks]
      refine .closed ?_
      obtain ⟨kind, split⟩ := b
      cases kind <;> rfl
  | split hblocks hp =>
      rw [hblocks]
      exact .split rfl

/-- A loop that is opened has the level behind all others. -/
theorem Takes.levels (h : Takes r p tag? r') :
    ∃ n, r'.opened = r.opened + n ∧
      tag?.toList.filterMap Tag.level? = List.range' (r.opened + 1) n := by
  cases h with
  | each => exact ⟨1, rfl, rfl⟩
  | @close _ b =>
      obtain ⟨kind, split⟩ := b
      refine ⟨0, rfl, ?_⟩
      cases kind <;> rfl
  | _ => exact ⟨0, rfl, rfl⟩

end Turns

/-! ## Reading a source -/

section Runs

variable {r : Template.Reading} {ps : List Piece} {tags : List Tag}

theorem tags_cons_eq_ok_iff {p : Piece} {rest : List Piece} :
    r.tags (p :: rest) = .ok tags ↔
      ∃ tag? r' more, Takes r p tag? r' ∧ r'.tags rest = .ok more ∧ tag?.toList ++ more = tags := by
  rw [Template.Reading.tags, bind_eq_ok]
  constructor
  · rintro ⟨⟨tag?, r'⟩, hstep, hrest⟩
    obtain ⟨more, hmore, heq⟩ := bind_eq_ok.mp hrest
    cases heq
    exact ⟨tag?, r', more, takes_of_step hstep, hmore, rfl⟩
  · rintro ⟨tag?, r', more, htakes, hmore, rfl⟩
    exact ⟨(tag?, r'), htakes.step, bind_eq_ok.mpr ⟨more, hmore, rfl⟩⟩

theorem tags_nil_eq_ok_iff : r.tags [] = .ok tags ↔ r.blocks = [] ∧ tags = [] := by
  rw [Template.Reading.tags]
  cases r.blocks with
  | nil => simp [eq_comm]
  | cons b outer => simp

/-- **What is read is the rest of the open blocks.** -/
theorem tags_ok_iff :
    (∃ tags, r.tags ps = .ok tags) ↔ Completes mustaches 0 (sourceBlocks r.blocks) ps := by
  induction ps generalizing r with
  | nil =>
      rw [completes_nil_iff, sourceBlocks, List.map_eq_nil_iff]
      simp [tags_nil_eq_ok_iff]
  | cons p rest ih =>
      rw [completes_cons_iff]
      constructor
      · rintro ⟨tags, h⟩
        obtain ⟨tag?, r', more, htakes, hmore, -⟩ := tags_cons_eq_ok_iff.mp h
        exact ⟨_, htakes.turn, ih.mp ⟨more, hmore⟩⟩
      · rintro ⟨blocks', hturn, hrest⟩
        obtain ⟨tag?, r', htakes, rfl⟩ := takes_of_turn hturn
        obtain ⟨more, hmore⟩ := ih.mpr hrest
        exact ⟨_, tags_cons_eq_ok_iff.mpr ⟨tag?, r', more, htakes, hmore, rfl⟩⟩

/-- **So are the tags of what is read.** -/
theorem completes_of_tags (h : r.tags ps = .ok tags) :
    Completes printedTags [] (printedBlocks r.blocks) tags := by
  induction ps generalizing r tags with
  | nil =>
      obtain ⟨hblocks, rfl⟩ := tags_nil_eq_ok_iff.mp h
      rw [completes_nil_iff, hblocks]
      rfl
  | cons p rest ih =>
      obtain ⟨tag?, r', more, htakes, hmore, rfl⟩ := tags_cons_eq_ok_iff.mp h
      cases tag? with
      | none =>
          -- only a comment gives no tag
          cases htakes
          exact ih hmore
      | some tag => exact completes_cons_iff.mpr ⟨_, htakes.printed, ih hmore⟩

/-- **The levels of the loops are counted in their order.** -/
theorem levels_of_tags (h : r.tags ps = .ok tags) :
    ∃ n, tags.filterMap Tag.level? = List.range' (r.opened + 1) n := by
  induction ps generalizing r tags with
  | nil =>
      obtain ⟨-, rfl⟩ := tags_nil_eq_ok_iff.mp h
      exact ⟨0, rfl⟩
  | cons p rest ih =>
      obtain ⟨tag?, r', more, htakes, hmore, rfl⟩ := tags_cons_eq_ok_iff.mp h
      obtain ⟨n, hopened, hown⟩ := htakes.levels
      obtain ⟨m, hrest⟩ := ih hmore
      refine ⟨n + m, ?_⟩
      rw [List.filterMap_append, hown, hrest, hopened, Nat.add_right_comm, List.range'_append_1]

end Runs

/-- The digits of a level can be read back. -/
theorem itemVariable_injective : Function.Injective itemVariable := by
  intro i j h
  have hdigits : Nat.toDigits 10 i = Nat.toDigits 10 j := by
    have hlists := congrArg String.toList h
    simpa [itemVariable, Nat.toString_eq_repr, Nat.toList_repr] using hlists
  have hread : Function.LeftInverse (fun cs => Nat.ofDigitChars 10 cs 0) (Nat.toDigits 10) :=
    fun n => Nat.ofDigitChars_ten_toDigits
  exact hread.injective hdigits

/-! ## Acceptance -/

theorem completes_nil_blocks_iff {α σ κ : Type} {B : Brackets α σ κ} {base : σ} {xs : List α} :
    Completes B base [] xs ↔ Nested B base xs := by
  constructor
  · rintro ⟨h⟩
    exact h
  · exact .done

/-- **Exactly the sources with nested blocks and translatable expressions are translated.** A source is
cut in one way only, and what it is translated to is nested as well: each loop has an item
variable of its own, and an expression refers to those of the loops that it is in the body of. -/
theorem translated_iff_nested (rules : List Template.Rule) (template : String) :
    ∃ ps, (∀ ps', Cuts (Rule.applyAll rules template).toList ps' ↔ ps' = ps) ∧
      ((∃ printed, printedForm rules template = .ok printed) ↔ Nested mustaches 0 ps) ∧
      ∀ printed, printedForm rules template = .ok printed →
        ∃ tags, Tag.read (Rule.applyAll rules template) = .ok tags ∧ Tag.printAll tags = printed ∧
          Nested printedTags [] tags ∧
          ((tags.filterMap Tag.level?).map itemVariable).Nodup := by
  have hcuts := cuts_pieces (Rule.applyAll rules template).toList
  refine ⟨_, fun ps' => ⟨fun h => h.unique hcuts, fun h => h ▸ hcuts⟩, ?_, ?_⟩
  · rw [← completes_nil_blocks_iff]
    have hread : (∃ tags, Tag.read (Rule.applyAll rules template) = .ok tags) ↔
        Completes mustaches 0 [] (pieces (Rule.applyAll rules template).toList) := tags_ok_iff
    rw [← hread]
    constructor
    · rintro ⟨printed, h⟩
      obtain ⟨tags, htags, -⟩ := bind_eq_ok.mp h
      exact ⟨tags, htags⟩
    · rintro ⟨tags, htags⟩
      exact ⟨_, bind_eq_ok.mpr ⟨tags, htags, rfl⟩⟩
  · intro printed h
    obtain ⟨tags, htags, heq⟩ := bind_eq_ok.mp h
    obtain ⟨n, hlevels⟩ := levels_of_tags htags
    refine ⟨tags, htags, Except.ok.inj heq,
      completes_nil_blocks_iff.mp (completes_of_tags htags), ?_⟩
    rw [hlevels]
    exact List.Nodup.map itemVariable_injective List.nodup_range'

/-- A loop, in whose body something outside is shown. -/
def outwardSource : String := "\x7b\x7b#each a\x7d\x7d\x7b\x7b../b\x7d\x7d\x7b\x7b/each\x7d\x7d"

def outwardPrinted : String :=
  "\x7b% for _this1 in hb_iter(_ctx[\"a\"]) %\x7d\x7b% set _this1_loop = loop %\x7d" ++
    "\x7b\x7b _ctx[\"b\"] \x7d\x7d\x7b% endfor %\x7d"

theorem translated_iff_nested_outward :
    printedForm [] outwardSource = .ok outwardPrinted ∧
      ∃ tags, Tag.printAll tags = outwardPrinted ∧ Nested printedTags [] tags := by
  have hprinted : printedForm [] outwardSource = .ok outwardPrinted := by
    refine toOption_eq_some_iff.mp ?_
    decide +kernel
  obtain ⟨-, -, -, hnested⟩ := translated_iff_nested [] outwardSource
  obtain ⟨tags, -, hprint, htags, -⟩ := hnested _ hprinted
  exact ⟨hprinted, tags, hprint, htags⟩

end Formwork.Proofs
