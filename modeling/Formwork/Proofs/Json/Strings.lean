import Formwork.Json.Reader
import Formwork.Json.Writer
import Mathlib.Data.Nat.Digits.Defs

/-!
# Strings in JSON

A string is written in ASCII, character by character: most as they are, some behind a backslash, and
the rest as the hexadecimal escapes of their UTF-16 units. The reader takes each of these back to
the one character that it was written for (`stringBody?_escapeChar`), since no character is half of
a pair; so a string is read as it was written, whatever stands behind it (`stringBody?_string`).
-/

namespace Formwork.Proofs

open Formwork Formwork.Json Formwork.Text

/-! ## Hexadecimal escapes -/

section Escapes

variable {n high low : Nat}

theorem hexadecimal_succ {width : Nat} (h : 0 < width) (n : Nat) :
    hexadecimal (width + 1) n = hexadecimal width (n / 16) ++ [Nat.digitChar (n % 16)] := by
  unfold hexadecimal
  by_cases hn : n < 16
  · have hzero : n / 16 = 0 := by omega
    have hmod : n % 16 = n := by omega
    rw [hzero, hmod, Nat.toDigits_zero, Nat.toDigits_of_lt_base hn]
    obtain ⟨w, rfl⟩ : ∃ w, width = w + 1 := ⟨width - 1, by omega⟩
    simp [List.replicate_succ']
  · rw [Nat.toDigits_of_base_le (by omega) (by omega)]
    simp

theorem hexadecimal_four (h : n < 0x10000) :
    hexadecimal 4 n = [Nat.digitChar (n / 4096), Nat.digitChar (n / 256 % 16),
      Nat.digitChar (n / 16 % 16), Nat.digitChar (n % 16)] := by
  have hfirst : hexadecimal 1 (n / 16 / 16 / 16) = [Nat.digitChar (n / 4096)] := by
    unfold hexadecimal
    rw [Nat.div_div_eq_div_mul, Nat.div_div_eq_div_mul, Nat.toDigits_of_lt_base (by omega)]
    rfl
  rw [hexadecimal_succ (by omega), hexadecimal_succ (by omega), hexadecimal_succ (by omega),
    hfirst, Nat.div_div_eq_div_mul]
  rfl

theorem hexDigit?_digitChar (h : n < 16) : hexDigit? (Nat.digitChar n) = some n := by
  have hall : ∀ d < 16, hexDigit? (Nat.digitChar d) = some d := by decide
  exact hall n h

/-- Four digits are read as the unit that they were written for. -/
theorem unit?_hexadecimal (h : n < 0x10000) (rest : List Char) :
    unit? (hexadecimal 4 n ++ rest) = some (n, rest) := by
  rw [hexadecimal_four h]
  simp only [List.cons_append, List.nil_append, unit?]
  rw [hexDigit?_digitChar (by omega), hexDigit?_digitChar (by omega),
    hexDigit?_digitChar (by omega), hexDigit?_digitChar (by omega)]
  simp only [Option.bind_eq_bind, Option.bind_some, Option.some.injEq, Prod.mk.injEq, and_true]
  omega

theorem isHighSurrogate_iff : isHighSurrogate n = true ↔ 0xD800 ≤ n ∧ n < 0xDC00 := by
  simp [isHighSurrogate]

theorem isLowSurrogate_iff : isLowSurrogate n = true ↔ 0xDC00 ≤ n ∧ n < 0xE000 := by
  simp [isLowSurrogate]

/-- Two halves are read as the character that they make. -/
theorem unicodeEscape?_pair {cs between rest : List Char}
    (hhigh : unit? cs = some (high, '\\' :: 'u' :: between))
    (hlow : unit? between = some (low, rest))
    (hfirst : isHighSurrogate high = true) (hsecond : isLowSurrogate low = true) :
    unicodeEscape? cs =
      some (Char.ofNat (0x10000 + (high - 0xD800) * 0x400 + (low - 0xDC00)), rest) := by
  simp [unicodeEscape?, hhigh, hlow, hfirst, hsecond]

/-- A unit that is no half is read as the character of that number. -/
theorem unicodeEscape?_whole {cs rest : List Char} (h : unit? cs = some (n, rest))
    (hhigh : ¬ isHighSurrogate n = true) (hlow : ¬ isLowSurrogate n = true) :
    unicodeEscape? cs = some (Char.ofNat n, rest) := by
  simp [unicodeEscape?, h, hhigh, hlow]

/-- No character is half of a pair. -/
theorem toNat_char_range (c : Char) :
    c.toNat < 0xD800 ∨ 0xE000 ≤ c.toNat ∧ c.toNat < 0x110000 := by
  have hvalid := c.valid
  unfold UInt32.isValidChar Nat.isValidChar at hvalid
  show c.val.toNat < _ ∨ _ ≤ c.val.toNat ∧ c.val.toNat < _
  omega

/-- The two halves that a wide character is written as are read as that character. -/
theorem unicodeEscape?_halves {c : Char} (hwide : ¬ c.toNat < 0x10000)
    (hhigh : 0xD800 + (c.toNat - 0x10000) / 0x400 = high)
    (hlow : 0xDC00 + (c.toNat - 0x10000) % 0x400 = low) (rest : List Char) :
    unicodeEscape? (hexadecimal 4 high ++ '\\' :: 'u' :: (hexadecimal 4 low ++ rest)) =
      some (c, rest) := by
  have hrange := toNat_char_range c
  have hsum : 0x10000 + (high - 0xD800) * 0x400 + (low - 0xDC00) = c.toNat := by omega
  rw [unicodeEscape?_pair (unit?_hexadecimal (by omega) _) (unit?_hexadecimal (by omega) _)
    (isHighSurrogate_iff.mpr (by omega)) (isLowSurrogate_iff.mpr (by omega)), hsum,
    Char.ofNat_toNat]

/-- The escapes of a character are read as that character. -/
theorem unicodeEscape?_units (c : Char) (rest : List Char) :
    ∃ digits, (units c).flatMap unitEscape ++ rest = '\\' :: 'u' :: digits
      ∧ unicodeEscape? digits = some (c, rest) := by
  by_cases hn : c.toNat < 0x10000
  · have hrange := toNat_char_range c
    have hhigh : ¬ isHighSurrogate c.toNat = true := by
      rw [isHighSurrogate_iff]
      omega
    have hlow : ¬ isLowSurrogate c.toNat = true := by
      rw [isLowSurrogate_iff]
      omega
    have hunits : units c = [c.toNat] := if_pos hn
    refine ⟨hexadecimal 4 c.toNat ++ rest, by rw [hunits]; simp [unitEscape], ?_⟩
    rw [unicodeEscape?_whole (unit?_hexadecimal hn rest) hhigh hlow, Char.ofNat_toNat]
  · -- the halves are named, so that `omega` sees their bounds and not how they are computed
    obtain ⟨high, low, hunits, hhigh, hlow⟩ : ∃ high low, units c = [high, low]
        ∧ 0xD800 + (c.toNat - 0x10000) / 0x400 = high
        ∧ 0xDC00 + (c.toNat - 0x10000) % 0x400 = low := ⟨_, _, if_neg hn, rfl, rfl⟩
    rw [hunits]
    exact ⟨hexadecimal 4 high ++ '\\' :: 'u' :: (hexadecimal 4 low ++ rest), by simp [unitEscape],
      unicodeEscape?_halves hn hhigh hlow rest⟩

end Escapes

/-! ## Whole strings -/

/-- What the reader makes of a string behind its first character. -/
def behindChar (c : Char) (read : Option (List Char × List Char)) :
    Option (List Char × List Char) :=
  read.map fun (cs, rest) => (c :: cs, rest)

/-- A character behind a backslash is read as the one that the escape stands for. -/
theorem stringBody?_simple {c e : Char} (h : simpleEscape? e = some c) (fuel : Nat)
    (rest : List Char) :
    stringBody? (fuel + 1) ('\\' :: e :: rest) = behindChar c (stringBody? fuel rest) := by
  have hunicode : e = 'u' → False := by
    rintro rfl
    cases h
  rw [stringBody?.eq_5 _ _ _ hunicode, h]
  cases stringBody? fuel rest <;> rfl

/-- A character is written behind a backslash, as it is, or as its escapes. -/
theorem escapeChar_cases (c : Char) :
    (∃ e, escapeChar c = ['\\', e] ∧ simpleEscape? e = some c)
      ∨ (escapeChar c = [c] ∧ 32 ≤ c.toNat ∧ c ≠ '"' ∧ c ≠ '\\')
      ∨ escapeChar c = (units c).flatMap unitEscape := by
  by_cases hsimple : c = '"' ∨ c = '\\' ∨ c = '\n' ∨ c = '\r' ∨ c = '\t' ∨ c = Char.ofNat 8
      ∨ c = Char.ofNat 12
  · left
    rcases hsimple with rfl | rfl | rfl | rfl | rfl | rfl | rfl <;> exact ⟨_, rfl, rfl⟩
  · right
    simp only [not_or] at hsimple
    obtain ⟨hquote, hslash, hfeed, hreturn, htab, hback, hform⟩ := hsimple
    have hcode : ∀ n, c ≠ Char.ofNat n → c.toNat ≠ n := by
      rintro n hne rfl
      exact hne (Char.ofNat_toNat c).symm
    have hescape : escapeChar c =
        if 32 ≤ c.toNat && c.toNat < 127 then [c] else (units c).flatMap unitEscape := by
      simp [escapeChar, hquote, hslash, hfeed, hreturn, htab, hcode 8 hback, hcode 12 hform]
    rw [hescape]
    split
    · rename_i hshown
      exact .inl ⟨rfl, by simp at hshown; omega, hquote, hslash⟩
    · exact .inr rfl

/-- **A character is read as it was written.** -/
theorem stringBody?_escapeChar (fuel : Nat) (c : Char) (rest : List Char) :
    stringBody? (fuel + 1) (escapeChar c ++ rest) = behindChar c (stringBody? fuel rest) := by
  rcases escapeChar_cases c with ⟨e, hescape, he⟩ | ⟨hescape, hshown, hquote, hslash⟩ | hescape
  · rw [hescape]
    exact stringBody?_simple he fuel rest
  · have hcontrol : ¬ c.toNat < 32 := Nat.not_lt.mpr hshown
    rw [hescape, List.singleton_append, stringBody?.eq_6 _ _ _ hquote
      (fun _ hc => absurd hc hslash) fun _ _ hc => absurd hc hslash,
      if_neg (by simp [hcontrol, hslash])]
    cases stringBody? fuel rest <;> rfl
  · obtain ⟨digits, hdigits, hread⟩ := unicodeEscape?_units c rest
    rw [hescape, hdigits, stringBody?.eq_4, hread]
    simp only [Option.bind_eq_bind, Option.bind_some]
    cases stringBody? fuel rest <;> rfl

theorem stringBody?_flatMap (cs rest : List Char) {fuel : Nat} (hfuel : cs.length ≤ fuel) :
    stringBody? fuel (cs.flatMap escapeChar ++ '"' :: rest) = some (cs, rest) := by
  induction cs generalizing fuel with
  | nil => cases fuel <;> rfl
  | cons c cs ih =>
      obtain ⟨fuel, rfl⟩ : ∃ n, fuel = n + 1 := ⟨fuel - 1, by simp at hfuel; omega⟩
      rw [List.flatMap_cons, List.append_assoc, stringBody?_escapeChar,
        ih (Nat.le_of_succ_le_succ hfuel)]
      rfl

theorem length_le_flatMap_escapeChar (cs : List Char) :
    cs.length ≤ (cs.flatMap escapeChar).length := by
  have hunits : ∀ c, 0 < ((units c).flatMap unitEscape).length := by
    intro c
    obtain ⟨digits, hdigits, -⟩ := unicodeEscape?_units c []
    rw [← List.append_nil (List.flatMap _ _), hdigits]
    exact Nat.succ_pos _
  have hchar : ∀ c, 1 ≤ (escapeChar c).length := by
    intro c
    rcases escapeChar_cases c with ⟨e, hescape, -⟩ | ⟨hescape, -⟩ | hescape
    · simp [hescape]
    · simp [hescape]
    · rw [hescape]
      exact hunits c
  induction cs with
  | nil => exact Nat.le_refl 0
  | cons c cs ih =>
      rw [List.flatMap_cons, List.length_append, List.length_cons, Nat.add_comm cs.length]
      exact Nat.add_le_add (hchar c) ih

/-- **A string is read as it was written**, up to its closing quote. -/
theorem stringBody?_string (s : String) (rest : List Char) :
    ∃ body, string s ++ rest = '"' :: body
      ∧ stringBody? body.length body = some (s.toList, rest) := by
  have hlength := length_le_flatMap_escapeChar s.toList
  refine ⟨s.toList.flatMap escapeChar ++ '"' :: rest, by simp [string],
    stringBody?_flatMap s.toList rest ?_⟩
  rw [List.length_append]
  exact Nat.le_add_right_of_le hlength

end Formwork.Proofs
