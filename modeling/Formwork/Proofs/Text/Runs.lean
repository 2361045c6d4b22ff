import Formwork.Text.Blank
import Mathlib.Data.List.DropRight
import Mathlib.Data.List.TakeDrop

/-!
# Runs of characters

Readers of texts take a run of characters of some kind and go on behind it, and most of them trim
the text first. A run ends where its characters do (`span_append`), and trimming only takes the
blanks at the two ends (`trim_surrounded`), so that it leaves a text without any as it is
(`trim_of_no_blank`).
-/

namespace Formwork.Proofs

open Formwork.Text

/-! ## What holds of all characters -/

section Decisions

variable {p : Char → Prop} [DecidablePred p]

/-- Whether all characters of a text are of some kind is decided along the text, and not by asking
of every character there is whether it stands in the text. -/
instance (priority := high) decidableForallMem (cs : List Char) : Decidable (∀ c ∈ cs, p c) :=
  List.decidableBAll p cs

/-- So it is for the character at an end of a text, if there is one. -/
instance (priority := high) decidableForallEqSome (c? : Option Char) :
    Decidable (∀ c, c? = some c → p c) :=
  match c? with
  | none => isTrue nofun
  | some c => decidable_of_iff (p c) ⟨fun h _ hd => Option.some.inj hd ▸ h, fun h => h c rfl⟩

end Decisions

/-! ## Where a run ends -/

/-- A run ends where its characters do. -/
theorem span_append {α : Type} {p : α → Bool} {front behind : List α}
    (h : ∀ x ∈ front, p x = true) (hend : ∀ x, behind.head? = some x → p x = false) :
    (front ++ behind).span p = (front, behind) := by
  have hstop : behind.takeWhile p = [] ∧ behind.dropWhile p = behind := by
    cases behind with
    | nil => exact ⟨rfl, rfl⟩
    | cons x behind => simp [hend x rfl]
  rw [List.span_eq_takeWhile_dropWhile, List.takeWhile_append_of_pos h,
    List.dropWhile_append_of_pos h, hstop.1, hstop.2, List.append_nil]

/-- What holds no such character ends at the first one. -/
theorem span_ne_append {x : Char} {front : List Char} (h : x ∉ front) (behind : List Char) :
    (front ++ x :: behind).span (· != x) = (front, x :: behind) := by
  refine span_append (fun c hc => ?_) ?_
  · rw [bne_iff_ne]
    rintro rfl
    exact h hc
  · rintro c ⟨⟩
    exact bne_self_eq_false x

/-! ## Trimming -/

/-- Trimming again, by fewer blanks, changes nothing. -/
theorem trimBy_trimBy {p q : Char → Bool} (h : ∀ c, q c = true → p c = true) (cs : List Char) :
    trimBy q (trimBy p cs) = trimBy p cs := by
  have hends : trimBy p cs = (cs.dropWhile p).rdropWhile p := rfl
  have hfirst : (trimBy p cs).dropWhile q = trimBy p cs := by
    refine List.dropWhile_eq_self_iff.mpr fun hl hq => ?_
    have hprefix : trimBy p cs <+: cs.dropWhile p := List.rdropWhile_prefix p _
    have hlong : 0 < (cs.dropWhile p).length := Nat.lt_of_lt_of_le hl hprefix.length_le
    refine List.dropWhile_get_zero_not p cs hlong (h _ ?_)
    rwa [List.get_eq_getElem, ← hprefix.getElem hl]
  have hlast : (trimBy p cs).rdropWhile q = trimBy p cs := by
    refine List.rdropWhile_eq_self_iff.mpr fun hne hq => ?_
    exact List.rdropWhile_last_not p (cs.dropWhile p) hne (h _ hq)
  show ((trimBy p cs).dropWhile q).rdropWhile q = _
  rw [hfirst, hlast]

theorem trim_trimmed (s : String) : trim (trimmed s).toList = trim s.toList := by
  rw [trimmed, String.toList_ofList]
  exact trimBy_trimBy (fun _ h => h) _

/-- A text with no blank in front and none at its end is not trimmed. -/
theorem trim_of_no_blank {cs : List Char} (hfirst : ∀ c, cs.head? = some c → isBlank c = false)
    (hlast : ∀ c, cs.getLast? = some c → isBlank c = false) : trim cs = cs := by
  have hdrop : cs.dropWhile isBlank = cs := by
    cases cs with
    | nil => rfl
    | cons c cs => exact List.dropWhile_cons_of_neg (by rw [hfirst c rfl]; decide)
  have hkeep : cs.rdropWhile isBlank = cs := List.rdropWhile_eq_self_iff.mpr fun hne => by
    rw [hlast _ (List.getLast?_eq_some_getLast hne)]
    decide
  show (cs.dropWhile isBlank).rdropWhile isBlank = cs
  rw [hdrop, hkeep]

/-- A text without blanks is not trimmed. -/
theorem trim_eq_self {cs : List Char} (h : ∀ c ∈ cs, isBlank c = false) : trim cs = cs :=
  trim_of_no_blank (fun c hc => h c (List.mem_of_mem_head? hc)) fun c hc =>
    h c (List.mem_of_getLast? hc)

/-- Nor is a text between two characters that are no blanks. -/
theorem trim_of_ends {c d : Char} (hc : isBlank c = false) (hd : isBlank d = false)
    (middle : List Char) : trim (c :: (middle ++ [d])) = c :: (middle ++ [d]) := by
  refine trim_of_no_blank ?_ ?_
  · rintro x ⟨⟩
    exact hc
  · intro x hx
    rw [← List.cons_append, List.getLast?_concat] at hx
    cases hx
    exact hd

/-! ## Blanks at the ends -/

section Blanks

variable {cs front behind : List Char}

/-- A text of nothing but blanks. -/
def Blanks (cs : List Char) : Prop := ∀ c ∈ cs, isBlank c = true

theorem Blanks.of_infix (h : Blanks cs) (hin : front <:+: cs) : Blanks front :=
  fun c hc => h c (hin.subset hc)

theorem Blanks.tail (h : Blanks cs) : Blanks cs.tail := fun c hc => h c (List.mem_of_mem_tail hc)

theorem trim_blanks_append (h : Blanks front) (cs : List Char) : trim (front ++ cs) = trim cs := by
  rw [trim, trimBy, List.dropWhile_append_of_pos h]
  rfl

theorem trim_append_blanks (h : Blanks behind) (cs : List Char) :
    trim (cs ++ behind) = trim cs := by
  have hend : ∀ cs, dropTrailing isBlank (cs ++ behind) = dropTrailing isBlank cs := by
    intro cs
    rw [dropTrailing, List.reverse_append,
      List.dropWhile_append_of_pos fun c hc => h c (List.mem_reverse.mp hc)]
    rfl
  rw [trim, trimBy, List.dropWhile_append]
  split
  · rename_i hnil
    rw [trim, trimBy, List.isEmpty_iff.mp hnil, List.dropWhile_eq_nil_iff.mpr h]
  · exact hend _

/-- What is trimmed off are the characters that are trimmed. -/
theorem trimBy_surrounded (p : Char → Bool) (cs : List Char) :
    ∃ front behind, (∀ c ∈ front, p c = true) ∧ (∀ c ∈ behind, p c = true)
      ∧ cs = front ++ (trimBy p cs ++ behind) := by
  refine ⟨cs.takeWhile p, (cs.dropWhile p).rtakeWhile p, ?_, ?_, ?_⟩
  · exact fun c hc => List.mem_takeWhile_imp hc
  · exact fun c hc => List.mem_rtakeWhile_imp hc
  · show cs = _ ++ ((cs.dropWhile p).rdropWhile p ++ _)
    rw [List.rdropWhile_append_rtakeWhile, List.takeWhile_append_dropWhile]

/-- What is trimmed off are blanks. -/
theorem trim_surrounded (cs : List Char) :
    ∃ front behind, Blanks front ∧ Blanks behind ∧ cs = front ++ (trim cs ++ behind) :=
  trimBy_surrounded isBlank cs

/-- Trimming leaves every character that is no blank. -/
theorem mem_trim_iff {c : Char} (hblank : isBlank c = false) : c ∈ trim cs ↔ c ∈ cs := by
  obtain ⟨front, behind, hfront, hbehind, heq⟩ := trim_surrounded cs
  have hout : ∀ {ends : List Char}, Blanks ends → c ∉ ends := by
    intro ends hends hmem
    rw [hends c hmem] at hblank
    cases hblank
  conv_rhs => rw [heq]
  simp [hout hfront, hout hbehind]

/-- Trimming some blanks first changes nothing. -/
theorem trim_trimBy {p : Char → Bool} (h : ∀ c, p c = true → isBlank c = true) (cs : List Char) :
    trim (trimBy p cs) = trim cs := by
  obtain ⟨front, behind, hfront, hbehind, heq⟩ := trimBy_surrounded p cs
  conv_rhs => rw [heq]
  rw [trim_blanks_append fun c hc => h c (hfront c hc),
    trim_append_blanks fun c hc => h c (hbehind c hc)]

theorem blanks_takeWhile (cs : List Char) : Blanks (cs.takeWhile isBlank) :=
  fun _ hc => List.mem_takeWhile_imp hc

theorem trim_dropWhile (cs : List Char) : trim (cs.dropWhile isBlank) = trim cs := by
  conv_rhs => rw [← List.takeWhile_append_dropWhile (p := isBlank) (l := cs)]
  rw [trim_blanks_append (blanks_takeWhile cs)]

/-- Only blanks are trimmed off as a whole. -/
theorem trim_eq_nil_iff : trim cs = [] ↔ Blanks cs := by
  constructor
  · intro h
    obtain ⟨front, behind, hfront, hbehind, heq⟩ := trim_surrounded cs
    rw [h] at heq
    intro c hc
    rw [heq, List.nil_append, List.mem_append] at hc
    rcases hc with hc | hc
    · exact hfront c hc
    · exact hbehind c hc
  · intro h
    have hnil := trim_blanks_append h []
    rwa [List.append_nil] at hnil

theorem dropTrailing_append_of_not_blanks (h : ¬ Blanks behind) (front : List Char) :
    dropTrailing isBlank (front ++ behind) = front ++ dropTrailing isBlank behind := by
  have hstop : (behind.reverse.dropWhile isBlank).isEmpty = false := by
    rw [List.isEmpty_eq_false_iff, ne_eq, List.dropWhile_eq_nil_iff]
    exact fun hall => h fun c hc => hall c (List.mem_reverse.mpr hc)
  rw [dropTrailing, dropTrailing, List.reverse_append, List.dropWhile_append, hstop,
    if_neg Bool.false_ne_true, List.reverse_append, List.reverse_reverse]

/-- What stands between two texts that are not blank is kept. -/
theorem trim_around (hfront : ¬ Blanks front) (hbehind : ¬ Blanks behind) (middle : List Char) :
    trim (front ++ (middle ++ behind)) =
      front.dropWhile isBlank ++ (middle ++ dropTrailing isBlank behind) := by
  have hstop : (front.dropWhile isBlank).isEmpty = false := by
    rw [List.isEmpty_eq_false_iff, ne_eq, List.dropWhile_eq_nil_iff]
    exact hfront
  rw [trim, trimBy, List.dropWhile_append, hstop, if_neg Bool.false_ne_true,
    ← List.append_assoc, dropTrailing_append_of_not_blanks hbehind, List.append_assoc]

theorem not_blanks_dropTrailing (h : ¬ Blanks behind) : ¬ Blanks (dropTrailing isBlank behind) := by
  intro hblanks
  have hends : behind = dropTrailing isBlank behind ++ behind.rtakeWhile isBlank :=
    (List.rdropWhile_append_rtakeWhile ..).symm
  refine h fun c hc => ?_
  rw [hends, List.mem_append] at hc
  rcases hc with hc | hc
  · exact hblanks c hc
  · exact List.mem_rtakeWhile_imp hc

end Blanks

end Formwork.Proofs
