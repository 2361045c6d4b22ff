import Formwork.Proofs.Answer
import Formwork.Yaml.Token
import Mathlib.Data.List.Infix

/-!
# Where the scanner can fail

The scanner goes through a text from its beginning to its end: wherever it stands, what is
left is an end of the text. So each of its steps either stays in the text or fails
(`Scans`), and what a step fails over is in the text.

There are two faults. Most texts that cannot be cut into tokens are malformed. The other
fault is an escape with the code of no character, in a scalar between double quotes
(`HoldsWildEscape`).
-/

namespace Formwork.Proofs

open Formwork Formwork.Yaml

/-! ## Cursors -/

section Cursors

variable (c : Cursor)

theorem next_rest : c.next.rest <:+ c.rest := by
  unfold Cursor.next
  split
  · exact List.suffix_rfl
  · rename_i x rest heq
    rw [heq]
    split <;> exact List.suffix_cons x rest

theorem skip_rest (n : Nat) : (c.skip n).rest <:+ c.rest := by
  induction n generalizing c with
  | zero => exact List.suffix_rfl
  | succ n ih => exact (ih c.next).trans (next_rest c)

theorem take_rest (p : Char → Bool) : (c.take p).2.rest <:+ c.rest := skip_rest c _

theorem dropWhile_rest (p : Char → Bool) : (c.dropWhile p).rest <:+ c.rest := take_rest c p

theorem lineBreak_rest : c.lineBreak.2.rest <:+ c.rest := by
  unfold Cursor.lineBreak
  dsimp only
  split
  · exact skip_rest c 2
  · split
    · exact next_rest c
    · split
      · exact next_rest c
      · exact List.suffix_rfl

theorem comment_rest : c.comment.rest <:+ c.rest := by
  unfold Cursor.comment
  split
  · exact dropWhile_rest c _
  · exact List.suffix_rfl

end Cursors

/-- The text holds an escape with this code, which no character has. -/
def HoldsWildEscape (n : Nat) (text : List Char) : Prop :=
  ∃ letter width digits, escapeWidth? letter = some width ∧ digits.length = width
    ∧ hexNumber? digits = some n ∧ 0x110000 ≤ n ∧ '\\' :: letter :: digits <:+: text

/-- What may be wrong with a text that cannot be cut into tokens. -/
def ScanFault (text : List Char) (e : YamlError) : Prop :=
  e = .malformed ∨ ∃ n, e = .scalar (.characterCode n) ∧ HoldsWildEscape n text

/-- A step of the scanner stays in the text, or fails with one of its faults. -/
abbrev Scans {α : Type} (text : List Char) (place : α → Cursor) (x : Except YamlError α) : Prop :=
  KeepsTo (fun a => (place a).rest <:+ text) (ScanFault text) x

theorem Scans.malformed {α : Type} {text : List Char} {place : α → Cursor} :
    Scans text place (.error .malformed) := .error (.inl rfl)

section Scalars

variable {text : List Char}

theorem quotedBreaks_scans (fuel : Nat) {c : Cursor} (h : c.rest <:+ text) :
    Scans text Prod.snd (quotedBreaks fuel c) := by
  induction fuel generalizing c with
  | zero =>
      unfold quotedBreaks
      split
      · exact Scans.malformed
      · have hc := dropWhile_rest c fun x => x == ' ' || x == '\t'
        generalize (c.dropWhile fun x => x == ' ' || x == '\t') = c' at hc
        dsimp only
        generalize c'.lineBreak = found
        obtain ⟨br, c''⟩ := found
        cases br with
        | nil => exact .ok (hc.trans h)
        | cons b br => exact Scans.malformed
  | succ fuel ih =>
      unfold quotedBreaks
      split
      · exact Scans.malformed
      · have hc := dropWhile_rest c fun x => x == ' ' || x == '\t'
        generalize (c.dropWhile fun x => x == ' ' || x == '\t') = c' at hc
        have hbreak := lineBreak_rest c'
        dsimp only
        generalize c'.lineBreak = found at hbreak
        obtain ⟨br, c''⟩ := found
        cases br with
        | nil => exact .ok (hc.trans h)
        | cons b br => exact (ih (hbreak.trans (hc.trans h))).map fun _ h => h

/-- What stands at a cursor, when it is not the end. -/
theorem rest_of_peek {c : Cursor} {x : Char} (h : c.peek = x) (hx : x ≠ endMark) :
    ∃ rest, c.rest = x :: rest := by
  unfold Cursor.peek at h
  cases hrest : c.rest with
  | nil => rw [hrest] at h; exact absurd h.symm hx
  | cons y rest => rw [hrest] at h; exact ⟨rest, congrArg (· :: rest) h⟩

/-- An escape that is refused for its code stands at the cursor. -/
theorem holdsWildEscape_of_peek {c : Cursor} {width n : Nat} (hpeek : c.peek = '\\')
    (hwidth : escapeWidth? (c.peekAt 1) = some width)
    (hhex : hexNumber? ((c.rest.drop 2).take width) = some n)
    (hlong : ¬ ((c.rest.drop 2).take width).length < width) (hwild : 0x110000 ≤ n) :
    HoldsWildEscape n c.rest := by
  obtain ⟨rest, hrest⟩ := rest_of_peek hpeek (by decide)
  rw [hrest] at hhex hlong ⊢
  cases rest with
  | nil =>
      -- no digits make no number that is large
      have hzero : hexNumber? (([] : List Char).take width) = some 0 := by rw [List.take_nil]; rfl
      rw [show ['\\'].drop 2 = [] from rfl, hzero] at hhex
      cases hhex
      exact absurd hwild (by decide)
  | cons letter more =>
      rw [Cursor.peekAt, hrest] at hwidth
      have hlength : ((('\\' :: letter :: more).drop 2).take width).length = width :=
        Nat.le_antisymm (List.length_take_le ..) (Nat.not_lt.mp hlong)
      refine ⟨letter, width, _, hwidth, hlength, hhex, hwild, ?_⟩
      have hprefix : letter :: ((('\\' :: letter :: more).drop 2).take width) <+: letter :: more :=
        (List.prefix_cons_inj _).mpr (List.take_prefix ..)
      exact ((List.prefix_cons_inj _).mpr hprefix).isInfix

theorem HoldsWildEscape.of_suffix {n : Nat} {cs : List Char} (h : HoldsWildEscape n cs)
    (hsuffix : cs <:+ text) : HoldsWildEscape n text := by
  obtain ⟨letter, width, digits, hwidth, hlength, hhex, hwild, hin⟩ := h
  exact ⟨letter, width, digits, hwidth, hlength, hhex, hwild, hin.trans hsuffix.isInfix⟩

theorem quotedBody_scans (double : Bool) (fuel : Nat) {c : Cursor} (h : c.rest <:+ text) :
    Scans text Prod.snd (quotedBody double fuel c) := by
  induction fuel generalizing c with
  | zero => exact Scans.malformed
  | succ fuel ih =>
      have hgo : ∀ (cs : List Char) {c' : Cursor}, c'.rest <:+ c.rest →
          Scans text Prod.snd ((quotedBody double fuel c').map fun r => (cs ++ r.1, r.2)) :=
        fun cs c' hc' => (ih (hc'.trans h)).map fun _ h => h
      have hblanks := take_rest c fun x => x == ' ' || x == '\t'
      have hbreak := (lineBreak_rest (c.take fun x => x == ' ' || x == '\t').2).trans hblanks
      have hjoin := (lineBreak_rest c.next).trans (next_rest c)
      unfold quotedBody
      dsimp only
      generalize (if double then '"' else '\'') = quote
      split
      · exact Scans.malformed
      split
      · split
        · exact hgo _ (skip_rest c 2)
        · exact .ok ((next_rest c).trans h)
      split
      · split
        · have hmore := quotedBreaks_scans fuel (hbreak.trans h)
          split
          · rename_i heq
            exact .error (hmore.fails _ heq)
          · rename_i heq
            exact (ih (hmore.stays _ heq)).map fun _ h => h
        · exact hgo _ hblanks
      split
      · rename_i hescape
        split
        · exact hgo _ (skip_rest c 2)
        · rename_i hwidth
          split
          · exact Scans.malformed
          · rename_i hhex
            split
            · exact Scans.malformed
            · rename_i hlong
              split
              · rename_i hwild
                have hpeek : c.peek = '\\' := by
                  simpa using (Bool.and_eq_true_iff.mp hescape).2
                have hholds := holdsWildEscape_of_peek hpeek hwidth hhex hlong hwild
                exact .error (.inr ⟨_, rfl, hholds.of_suffix h⟩)
              · exact hgo _ (skip_rest c _)
        · split
          · have hmore := quotedBreaks_scans fuel (hjoin.trans h)
            split
            · rename_i heq
              exact .error (hmore.fails _ heq)
            · rename_i heq
              exact (ih (hmore.stays _ heq)).map fun _ h => h
          · exact Scans.malformed
      · exact hgo _ (next_rest c)

theorem quotedScalar_scans (double : Bool) {c : Cursor} (h : c.rest <:+ text) :
    Scans text Prod.snd (quotedScalar double c) :=
  quotedBody_scans double _ ((next_rest c).trans h)

theorem plainBreaks_rest (fuel : Nat) (c : Cursor) : (plainBreaks fuel c).2.1.rest <:+ c.rest := by
  induction fuel generalizing c with
  | zero => exact List.suffix_rfl
  | succ fuel ih =>
      unfold plainBreaks
      split
      · exact (ih c.next).trans (next_rest c)
      · split
        · dsimp only
          split
          · exact lineBreak_rest c
          · exact (ih _).trans (lineBreak_rest c)
        · exact List.suffix_rfl

theorem plainGap_rest (c : Cursor) : (plainGap c).cursor.rest <:+ c.rest := by
  have hspaces := take_rest c (· == ' ')
  unfold plainGap
  dsimp only
  split
  · have hbreak := (lineBreak_rest (c.take (· == ' ')).2).trans hspaces
    split
    · exact hbreak
    · exact (plainBreaks_rest _ _).trans hbreak
  · exact hspaces

theorem plainParts_rest (inFlow : Bool) (indent : Int) (fuel : Nat) (gap : List Char)
    (broken : Bool) (c : Cursor) :
    (plainParts inFlow indent fuel gap broken c).2.1.rest <:+ c.rest := by
  induction fuel generalizing gap broken c with
  | zero => exact List.suffix_rfl
  | succ fuel ih =>
      have hgap := (plainGap_rest (c.skip (plainRun inFlow c.rest).length)).trans (skip_rest c _)
      unfold plainParts
      dsimp only
      split
      · exact List.suffix_rfl
      split
      · exact List.suffix_rfl
      split
      · exact hgap
      · exact (ih _ _ _).trans hgap

theorem blockHeader_scans {c : Cursor} (h : c.rest <:+ text) :
    Scans text Prod.snd (blockHeader c) := by
  have hend : ∀ {c' : Cursor} (header : BlockHeader), c'.rest <:+ c.rest →
      Scans text Prod.snd
        (if !isSpaceBreakOrEnd c'.peek then .error .malformed
        else
          let c := (c'.dropWhile (· == ' ')).comment
          if isBreakOrEnd c.peek then .ok (header, c.lineBreak.2) else .error .malformed) := by
    intro c' header hc'
    split
    · exact Scans.malformed
    · dsimp only
      split
      · exact .ok ((lineBreak_rest _).trans
          ((comment_rest _).trans ((dropWhile_rest c' _).trans (hc'.trans h))))
      · exact Scans.malformed
  unfold blockHeader
  cases chompMark? c.peek with
  | some keep =>
      cases incrementMark? (c.peekAt 1) with
      | some n => exact hend _ (skip_rest c 2)
      | none => exact hend _ (next_rest c)
  | none =>
      cases incrementMark? c.peek with
      | none => exact hend _ List.suffix_rfl
      | some n =>
          cases chompMark? (c.peekAt 1) with
          | some keep => exact hend _ (skip_rest c 2)
          | none => exact hend _ (next_rest c)

theorem blockIndentation_rest (fuel furthest : Nat) (c : Cursor) :
    (blockIndentation fuel furthest c).2.2.rest <:+ c.rest := by
  induction fuel generalizing furthest c with
  | zero => exact List.suffix_rfl
  | succ fuel ih =>
      unfold blockIndentation
      split
      · exact (ih _ _).trans (next_rest c)
      · split
        · exact (ih _ _).trans (lineBreak_rest c)
        · exact List.suffix_rfl

theorem skipIndent_rest (indent : Nat) (c : Cursor) : (skipIndent indent c).rest <:+ c.rest :=
  skip_rest c _

theorem blockBreaks_rest (indent fuel : Nat) (c : Cursor) :
    (blockBreaks indent fuel c).2.rest <:+ c.rest := by
  induction fuel generalizing c with
  | zero => exact skipIndent_rest indent c
  | succ fuel ih =>
      unfold blockBreaks
      dsimp only
      split
      · exact (ih _).trans ((lineBreak_rest _).trans (skipIndent_rest indent c))
      · exact skipIndent_rest indent c

theorem blockLines_rest (folded : Bool) (indent fuel : Nat) (breaks : List Char) (c : Cursor) :
    (blockLines folded indent fuel breaks c).2.2.2.rest <:+ c.rest := by
  induction fuel generalizing breaks c with
  | zero => exact List.suffix_rfl
  | succ fuel ih =>
      have hline := (lineBreak_rest (c.take (!isBreak ·)).2).trans (take_rest c _)
      have hmore := (blockBreaks_rest indent fuel (c.take (!isBreak ·)).2.lineBreak.2).trans hline
      unfold blockLines
      dsimp only
      split
      · exact List.suffix_rfl
      split
      · exact (ih _ _).trans hmore
      · exact hmore

theorem blockScalar_scans (folded : Bool) (outer : Int) {c : Cursor} (h : c.rest <:+ text) :
    Scans text Prod.snd (blockScalar folded outer c) := by
  have hheader := blockHeader_scans ((next_rest c).trans h)
  unfold blockScalar
  split
  · rename_i heq
    exact .error (hheader.fails _ heq)
  · rename_i header c' heq
    have hc' := hheader.stays _ heq
    cases header.increment with
    | some n =>
        dsimp only
        have hlines := blockLines_rest folded (max 1 (outer + 1).toNat + n - 1)
          (c'.rest.length + 1)
        refine .ok ((hlines _ _).trans ?_)
        exact (blockBreaks_rest _ (c'.rest.length + 1) c').trans hc'
    | none =>
        dsimp only
        refine .ok ((blockLines_rest folded _ (c'.rest.length + 1) _ _).trans ?_)
        exact (blockIndentation_rest (c'.rest.length + 1) 0 c').trans hc'

end Scalars

/-! ## Tokens -/

section Tokens

open Layout

variable {text : List Char}

theorem skipBlanks_rest (fuel : Nat) (l : Layout) :
    (skipBlanks fuel l).cursor.rest <:+ l.cursor.rest := by
  induction fuel generalizing l with
  | zero => exact List.suffix_rfl
  | succ fuel ih =>
      have hcomment := (comment_rest _).trans (dropWhile_rest l.cursor (· == ' '))
      have hbreak := (lineBreak_rest (l.cursor.dropWhile (· == ' ')).comment).trans hcomment
      unfold skipBlanks
      dsimp only
      generalize (l.cursor.dropWhile (· == ' ')).comment.lineBreak = found at hbreak
      obtain ⟨br, c⟩ := found
      cases br with
      | nil => exact hcomment
      | cons b br => exact (ih _).trans hbreak

theorem anchorName_scans {c : Cursor} (h : c.rest <:+ text) :
    Scans text Prod.snd (anchorName c) := by
  unfold anchorName
  dsimp only
  split
  · exact Scans.malformed
  · exact .ok ((take_rest _ _).trans ((next_rest c).trans h))

theorem tagText_scans {c : Cursor} (h : c.rest <:+ text) : Scans text Prod.snd (tagText c) := by
  unfold tagText
  dsimp only
  split
  · exact Scans.malformed
  · split
    · exact .ok ((take_rest c _).trans h)
    · exact Scans.malformed

theorem tagHandle_scans {c : Cursor} (h : c.rest <:+ text) :
    Scans text Prod.snd (tagHandle c) := by
  unfold tagHandle
  dsimp only
  split
  · exact Scans.malformed
  split
  · exact .ok ((next_rest _).trans ((skip_rest c _).trans h))
  · split
    · exact .ok ((skip_rest c _).trans h)
    · exact Scans.malformed

theorem tag_scans {c : Cursor} (h : c.rest <:+ text) : Scans text Prod.snd (Layout.tag c) := by
  have hend : ∀ found : Tag × Cursor, found.2.rest <:+ text →
      Scans text Prod.snd
        (if isSpaceBreakOrEnd found.2.peek then .ok (found.1, found.2) else .error .malformed) := by
    intro found hfound
    split
    · exact .ok hfound
    · exact Scans.malformed
  unfold Layout.tag
  dsimp only
  split
  · refine (tagText_scans ((skip_rest c 2).trans h)).bind fun (suffix, c') hc' => ?_
    dsimp only
    split
    · exact Scans.malformed
    · exact hend _ ((next_rest c').trans hc')
  split
  · exact hend _ ((next_rest c).trans h)
  · split
    · exact (tagHandle_scans h).bind fun (handle, c') hc' =>
        (tagText_scans hc').bind fun (suffix, c'') hc'' => hend _ hc''
    · exact (tagText_scans ((next_rest c).trans h)).bind fun (suffix, c'') hc'' => hend _ hc''

theorem directiveNumber_scans {c : Cursor} (h : c.rest <:+ text) :
    Scans text Prod.snd (directiveNumber c) := by
  unfold directiveNumber
  dsimp only
  split
  · exact Scans.malformed
  · exact .ok ((take_rest c _).trans h)

theorem directive_scans {c : Cursor} (h : c.rest <:+ text) :
    Scans text Prod.snd (directive c) := by
  have hname := ((take_rest c.next isNameChar).trans (next_rest c)).trans h
  have hend : ∀ found : Token × Cursor, found.2.rest <:+ text →
      Scans text Prod.snd
        (let c := (found.2.dropWhile (· == ' ')).comment
        if isBreakOrEnd c.peek then .ok (found.1, c.lineBreak.2) else .error .malformed) := by
    intro found hfound
    dsimp only
    split
    · exact .ok ((lineBreak_rest _).trans
        ((comment_rest _).trans ((dropWhile_rest _ _).trans hfound)))
    · exact Scans.malformed
  unfold directive
  dsimp only
  split
  · exact Scans.malformed
  split
  · refine (directiveNumber_scans ((dropWhile_rest _ _).trans hname)).bind fun (major, c') hc' => ?_
    dsimp only
    split
    · exact Scans.malformed
    · refine (directiveNumber_scans ((next_rest c').trans hc')).bind fun (minor, c'') hc'' => ?_
      dsimp only
      split
      · exact hend (.versionDirective major, c'') hc''
      · exact Scans.malformed
  split
  · refine (tagHandle_scans ((dropWhile_rest _ _).trans hname)).bind fun (handle, c') hc' => ?_
    dsimp only
    split
    · exact Scans.malformed
    · refine (tagText_scans ((dropWhile_rest c' _).trans hc')).bind fun (url, c'') hc'' => ?_
      dsimp only
      split
      · exact hend (.tagDirective handle url, c'') hc''
      · exact Scans.malformed
  · have hother : Scans text Prod.snd
        (.ok (Token.otherDirective, (c.next.take isNameChar).2.dropWhile (!isBreak ·))) :=
      .ok ((dropWhile_rest _ _).trans hname)
    exact hother.bind hend

section Steps

variable {l : Layout}

theorem closeBlocks_go_cursor (column : Int) (outer : List Int) (l : Layout) :
    (closeBlocks.go column outer l).cursor = l.cursor := by
  induction outer generalizing l with
  | nil =>
      unfold closeBlocks.go
      split <;> rfl
  | cons i rest ih =>
      unfold closeBlocks.go
      split
      · exact ih _
      · rfl

theorem closeBlocks_cursor (column : Int) (l : Layout) :
    (l.closeBlocks column).cursor = l.cursor := by
  unfold closeBlocks
  split
  · rfl
  · exact closeBlocks_go_cursor ..

theorem openBlock_cursor (column : Int) (t : Yaml.Token) (position : Nat) (l : Layout) :
    (l.openBlock column t position).cursor = l.cursor := by
  unfold openBlock
  split <;> rfl

theorem dropStale_scans (h : l.cursor.rest <:+ text) : Scans text Layout.cursor (dropStale l) := by
  unfold dropStale
  dsimp only
  split
  · exact Scans.malformed
  · exact .ok h

theorem dropCandidate_scans (h : l.cursor.rest <:+ text) :
    Scans text Layout.cursor (dropCandidate l) := by
  unfold dropCandidate
  split
  · split
    · exact Scans.malformed
    · exact .ok h
  · exact .ok h

theorem saveCandidate_scans (h : l.cursor.rest <:+ text) :
    Scans text Layout.cursor (saveCandidate l) := by
  unfold saveCandidate
  split
  · exact (dropCandidate_scans h).bind fun l' hl' => .ok hl'
  · exact .ok h

theorem endBlocks_scans (h : l.cursor.rest <:+ text) : Scans text Layout.cursor (endBlocks l) := by
  have hclosed : (l.closeBlocks (-1)).cursor.rest <:+ text := by rwa [closeBlocks_cursor]
  exact (dropCandidate_scans hclosed).bind fun l' hl' => .ok hl'

theorem pushMark_rest (t : Yaml.Token) (width : Nat) (h : l.cursor.rest <:+ text) :
    (l.pushMark t width).cursor.rest <:+ text := (skip_rest _ _).trans h

theorem readEnd_scans (h : l.cursor.rest <:+ text) : Scans text Layout.cursor (readEnd l) :=
  (endBlocks_scans h).bind fun _ hl => .ok hl

theorem readDirective_scans (h : l.cursor.rest <:+ text) :
    Scans text Layout.cursor (readDirective l) :=
  (endBlocks_scans h).bind fun _ hl => (directive_scans hl).bind fun _ hc => .ok hc

theorem readDocumentMark_scans (t : Yaml.Token) (h : l.cursor.rest <:+ text) :
    Scans text Layout.cursor (readDocumentMark t l) :=
  (endBlocks_scans h).bind fun _ hl => .ok (pushMark_rest _ _ hl)

theorem readFlowStart_scans (t : Yaml.Token) (h : l.cursor.rest <:+ text) :
    Scans text Layout.cursor (readFlowStart t l) :=
  (saveCandidate_scans h).bind fun _ hl => .ok (pushMark_rest _ _ hl)

theorem readFlowEnd_scans (t : Yaml.Token) (h : l.cursor.rest <:+ text) :
    Scans text Layout.cursor (readFlowEnd t l) := by
  refine (dropCandidate_scans h).bind fun l' hl => ?_
  cases l'.flowDepth with
  | zero => exact Scans.malformed
  | succ depth => exact .ok (pushMark_rest _ _ hl)

theorem readFlowEntry_scans (h : l.cursor.rest <:+ text) :
    Scans text Layout.cursor (readFlowEntry l) := by
  have hallowed : (l.allowKey true).cursor.rest <:+ text := h
  exact (dropCandidate_scans hallowed).bind fun _ hl => .ok (pushMark_rest _ _ hl)

/-- Outside of flow collections an entry may open a block. -/
theorem opened_rest (allowed : Bool) (t : Yaml.Token) (h : l.cursor.rest <:+ text) :
    ((if l.inFlow then l else l.openBlock l.column t l.tokens.size).allowKey allowed).cursor.rest <:+
      text := by
  show (if l.inFlow then l else l.openBlock l.column t l.tokens.size).cursor.rest <:+ text
  split
  · exact h
  · rwa [openBlock_cursor]

theorem readBlockEntry_scans (h : l.cursor.rest <:+ text) :
    Scans text Layout.cursor (readBlockEntry l) := by
  unfold readBlockEntry
  split
  · exact Scans.malformed
  · exact (dropCandidate_scans (opened_rest _ _ h)).bind fun _ hl => .ok (pushMark_rest _ _ hl)

theorem readKey_scans (h : l.cursor.rest <:+ text) : Scans text Layout.cursor (readKey l) := by
  unfold readKey
  split
  · exact Scans.malformed
  · exact (dropCandidate_scans (opened_rest _ _ h)).bind fun _ hl => .ok (pushMark_rest _ _ hl)

theorem readValue_scans (h : l.cursor.rest <:+ text) :
    Scans text Layout.cursor (readValue l) := by
  unfold readValue
  split
  · dsimp only
    split
    · exact .ok (pushMark_rest _ _ h)
    · refine .ok (pushMark_rest _ _ ?_)
      show (Layout.openBlock ..).cursor.rest <:+ text
      rwa [openBlock_cursor]
  · split
    · exact Scans.malformed
    · exact (dropCandidate_scans (opened_rest _ _ h)).bind fun _ hl => .ok (pushMark_rest _ _ hl)

theorem readAnchor_scans (make : String → Yaml.Token) (h : l.cursor.rest <:+ text) :
    Scans text Layout.cursor (readAnchor make l) :=
  (saveCandidate_scans h).bind fun _ hl => (anchorName_scans hl).bind fun _ hc => .ok hc

theorem readTag_scans (h : l.cursor.rest <:+ text) : Scans text Layout.cursor (readTag l) :=
  (saveCandidate_scans h).bind fun _ hl => (tag_scans hl).bind fun _ hc => .ok hc

theorem readBlockScalar_scans (folded : Bool) (h : l.cursor.rest <:+ text) :
    Scans text Layout.cursor (readBlockScalar folded l) := by
  have hallowed : (l.allowKey true).cursor.rest <:+ text := h
  exact (dropCandidate_scans hallowed).bind fun _ hl =>
    (blockScalar_scans _ _ hl).bind fun _ hc => .ok hc

theorem readQuotedScalar_scans (double : Bool) (h : l.cursor.rest <:+ text) :
    Scans text Layout.cursor (readQuotedScalar double l) :=
  (saveCandidate_scans h).bind fun _ hl => (quotedScalar_scans _ hl).bind fun _ hc => .ok hc

theorem readPlainScalar_scans (h : l.cursor.rest <:+ text) :
    Scans text Layout.cursor (readPlainScalar l) := by
  refine (saveCandidate_scans h).bind fun l' hl => ?_
  have hplain : (plainScalar l'.inFlow (l'.indent + 1) l'.cursor).2.1.rest <:+ text :=
    (plainParts_rest ..).trans hl
  generalize plainScalar l'.inFlow (l'.indent + 1) l'.cursor = found at hplain
  obtain ⟨cs, c, broken⟩ := found
  exact .ok hplain

theorem readToken_scans (h : l.cursor.rest <:+ text) :
    Scans text Layout.cursor (readToken l) := by
  refine (dropStale_scans ((skipBlanks_rest _ l).trans h)).bind fun l' hl' => ?_
  have hclosed : (l'.closeBlocks l'.column).cursor.rest <:+ text := by rwa [closeBlocks_cursor]
  refine .ite (readEnd_scans hclosed) ?_
  refine .ite (readDirective_scans hclosed) ?_
  refine .ite (readDocumentMark_scans _ hclosed) (.ite (readDocumentMark_scans _ hclosed) ?_)
  refine .ite (readFlowStart_scans _ hclosed) (.ite (readFlowStart_scans _ hclosed) ?_)
  refine .ite (readFlowEnd_scans _ hclosed) (.ite (readFlowEnd_scans _ hclosed) ?_)
  refine .ite (readFlowEntry_scans hclosed) ?_
  refine .ite (readBlockEntry_scans hclosed) ?_
  refine .ite (readKey_scans hclosed) (.ite (readValue_scans hclosed) ?_)
  refine .ite (readAnchor_scans _ hclosed) (.ite (readAnchor_scans _ hclosed) ?_)
  refine .ite (readTag_scans hclosed) ?_
  refine .ite (readBlockScalar_scans _ hclosed) (.ite (readBlockScalar_scans _ hclosed) ?_)
  refine .ite (readQuotedScalar_scans _ hclosed) (.ite (readQuotedScalar_scans _ hclosed) ?_)
  exact .ite (readPlainScalar_scans hclosed) Scans.malformed

/-- What is wrong with the scalar behind the tokens, if they are not all. -/
def StopsAtFault (text : List Char) (run : TokenRun) : Prop :=
  ∀ fault, run.fault? = some fault → ScanFault text (.scalar fault)

theorem readAll_stops (fuel : Nat) (h : l.cursor.rest <:+ text) :
    KeepsTo (StopsAtFault text) (· = .malformed) (readAll fuel l) := by
  induction fuel generalizing l with
  | zero => exact .error rfl
  | succ fuel ih =>
      have hstep := readToken_scans h
      unfold readAll
      cases hread : readToken l with
      | error e =>
          cases e with
          | malformed => exact .error rfl
          | scalar fault =>
              refine .ok ?_
              rintro _ ⟨⟩
              exact hstep.fails _ hread
      | ok l' => exact .ite (.ok nofun) (ih (hstep.stays l' hread))

end Steps

/-- **A text is cut into tokens up to its end or to an escape of a code that no character has**, if
it is not malformed. -/
theorem tokenize_stops (s : String) :
    KeepsTo (StopsAtFault s.toList) (· = .malformed) (tokenize s) := by
  unfold tokenize
  split
  · dsimp only
    split
    · exact readAll_stops _ (next_rest (Cursor.start s))
    · exact readAll_stops _ List.suffix_rfl
  · exact .error rfl

end Tokens
end Formwork.Proofs
