import Formwork.Template.Node
import Mathlib.Data.List.Basic

/-!
# Plain texts

A text without the marks of block templates is printed as it stands. Settling its lines
keeps it so: a mark is two characters, neither of which ends a line, and a line end that
is rewritten is still one.
-/

namespace Formwork.Proofs

open Formwork Formwork.Template Formwork.Text

/-! ## Marks as parts of a text -/

/-- What occurs in a text is a part of it. -/
theorem occursIn_iff {needle hay : List Char} : occursIn needle hay = true ↔ needle <:+: hay := by
  induction hay with
  | nil =>
      cases needle with
      | nil => simp [occursIn, breakAt?]
      | cons x needle => simp [occursIn, breakAt?]
  | cons c hay ih =>
      have hstep : occursIn needle (c :: hay) =
          ((needle.isPrefixOf? (c :: hay)).isSome || occursIn needle hay) := by
        unfold occursIn
        rw [breakAt?]
        cases needle.isPrefixOf? (c :: hay) <;> simp
      rw [hstep, Bool.or_eq_true, ih, List.infix_cons_iff, List.isSome_isPrefixOf?_eq_isPrefixOf,
        List.isPrefixOf_iff_prefix]

/-- A text needs protection when a mark is a part of it. -/
theorem needsProtection_eq_false_iff {s : String} :
    needsProtection s = false ↔ ∀ m ∈ marks, ¬ m.toList <:+: s.toList := by
  unfold needsProtection contains
  rw [List.any_eq_false]
  refine forall_congr' fun m => imp_congr_right fun _ => ?_
  rw [occursIn_iff]

/-- A mark is two characters that end no line. -/
theorem marks_pair {m : String} (h : m ∈ marks) :
    ∃ x y, m.toList = [x, y] ∧ x ≠ '\n' ∧ y ≠ '\n' := by
  simp only [marks, List.mem_cons, List.not_mem_nil, or_false] at h
  rcases h with rfl | rfl | rfl | rfl | rfl | rfl <;>
    exact ⟨_, _, rfl, by decide, by decide⟩

/-! ## Settled lines -/

/-- A settled text begins as it did, unless it begins with a line end. -/
theorem head_of_normalizeLines {cs after : List Char} {y : Char} (hy : y ≠ '\n')
    (h : normalizeLines cs = y :: after) : ∃ after', cs = y :: after' := by
  fun_cases normalizeLines cs with
  | case1 rest =>
      rw [normalizeLines] at h
      exact absurd (List.cons.inj h).1.symm hy
  | case2 rest hno =>
      rw [normalizeLines.eq_2 _ hno] at h
      exact absurd (List.cons.inj h).1.symm hy
  | case3 c rest hno hno' =>
      rw [normalizeLines.eq_3 _ _ hno hno'] at h
      obtain ⟨rfl, -⟩ := List.cons.inj h
      exact ⟨rest, rfl⟩
  | case4 => cases h

/-- Two characters that end no line stand together only where they did before. -/
theorem infix_of_normalizeLines {cs : List Char} {x y : Char} (hx : x ≠ '\n') (hy : y ≠ '\n')
    (h : [x, y] <:+: normalizeLines cs) : [x, y] <:+: cs := by
  induction cs using normalizeLines.induct with
  | case1 rest ih =>
      rw [normalizeLines, List.infix_cons_iff] at h
      rcases h with ⟨after, heq⟩ | h
      · exact absurd (List.cons.inj heq).1 hx
      · exact (ih h).trans ⟨['\r', '\n'], [], by simp⟩
  | case2 rest hno ih =>
      rw [normalizeLines.eq_2 _ hno, List.infix_cons_iff] at h
      rcases h with ⟨after, heq⟩ | h
      · exact absurd (List.cons.inj heq).1 hx
      · exact (ih h).trans ⟨['\r'], [], by simp⟩
  | case3 c rest hno hno' ih =>
      rw [normalizeLines.eq_3 _ _ hno hno', List.infix_cons_iff] at h
      rcases h with ⟨after, heq⟩ | h
      · obtain ⟨rfl, hrest⟩ := List.cons.inj heq
        obtain ⟨after', rfl⟩ := head_of_normalizeLines hy hrest.symm
        exact ⟨[], after', rfl⟩
      · exact (ih h).trans ⟨[c], [], by simp⟩
  | case4 => exact h

theorem infix_of_dropFinalLine (cs : List Char) : dropFinalLine cs <:+: cs := by
  unfold dropFinalLine
  split
  · rename_i rest heq
    have hcs : cs = rest.reverse ++ ['\n'] := by
      rw [← List.reverse_reverse cs, heq, List.reverse_cons]
    rw [hcs]
    exact (List.prefix_append ..).isInfix
  · exact List.infix_rfl

/-- A text with its line ends written as line feeds. -/
def settledText (s : String) : String := String.ofList (normalizeLines s.toList)

/-- A text at the end of a template, which loses a line feed at its own end if it is not protected. -/
def settledEnd (s : String) : String :=
  if needsProtection s then settledText s
  else String.ofList (dropFinalLine (normalizeLines s.toList))

/-! ## Plain texts -/

/-- A text without marks. -/
structure PlainText where
  text : String
  plain : needsProtection text = false

namespace PlainText

/-- The text with its line ends written as line feeds. -/
def lines (t : PlainText) : PlainText where
  text := String.ofList (normalizeLines t.text.toList)
  plain := by
    refine needsProtection_eq_false_iff.mpr fun m hm hin => ?_
    obtain ⟨x, y, hxy, hx, hy⟩ := marks_pair hm
    rw [hxy, String.toList_ofList] at hin
    refine needsProtection_eq_false_iff.mp t.plain m hm ?_
    rw [hxy]
    exact infix_of_normalizeLines hx hy hin

/-- The text without a line feed at its end. -/
def withoutFinalLine (t : PlainText) : PlainText where
  text := String.ofList (dropFinalLine t.text.toList)
  plain := by
    refine needsProtection_eq_false_iff.mpr fun m hm hin => ?_
    rw [String.toList_ofList] at hin
    exact needsProtection_eq_false_iff.mp t.plain m hm (hin.trans (infix_of_dropFinalLine _))

/-- The text as it is shown at the end of a template. -/
def final (t : PlainText) : PlainText := t.lines.withoutFinalLine

end PlainText

end Formwork.Proofs
