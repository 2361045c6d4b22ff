/-!
# Blanks

The white space that separates tokens and is trimmed from the ends of texts, and the table look-up
that it shares with the other character classes.
-/

namespace Formwork.Text

/-- Whether a character lies in one of the closed ranges. -/
def inRanges (ranges : List (Nat × Nat)) (c : Char) : Bool :=
  ranges.any fun (low, high) => low ≤ c.toNat && c.toNat ≤ high

/-- White space beyond ASCII. -/
def wideBlankRanges : List (Nat × Nat) :=
  [(0x85, 0x85), (0xA0, 0xA0), (0x1680, 0x1680), (0x2000, 0x200A), (0x2028, 0x2029),
   (0x202F, 0x202F), (0x205F, 0x205F), (0x3000, 0x3000)]

/-- White space: the ASCII blanks, the four information separators and the wide blanks. -/
def isBlank (c : Char) : Bool :=
  (9 ≤ c.toNat && c.toNat ≤ 13) || (28 ≤ c.toNat && c.toNat ≤ 32) ||
    (128 ≤ c.toNat && inRanges wideBlankRanges c)

/-- White space allowed around a numeral: the blanks without the information separators. -/
def isNumeralBlank (c : Char) : Bool := isBlank c && !(28 ≤ c.toNat && c.toNat ≤ 31)

/-- A text without the run of `p` characters at its end. -/
def dropTrailing (p : Char → Bool) (cs : List Char) : List Char :=
  (cs.reverse.dropWhile p).reverse

/-- A text without the runs of `p` characters at its two ends. -/
def trimBy (p : Char → Bool) (cs : List Char) : List Char :=
  dropTrailing p (cs.dropWhile p)

/-- A text without the blanks at its two ends. -/
def trim (cs : List Char) : List Char := trimBy isBlank cs

/-- A string without the blanks at its two ends. -/
def trimmed (s : String) : String := String.ofList (trim s.toList)

/-- A string of blanks only. -/
def isBlankText (s : String) : Bool := s.toList.all isBlank

end Formwork.Text
