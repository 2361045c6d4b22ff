import Formwork.Proofs.Answer
import Formwork.Proofs.Json.Strings
import Formwork.Proofs.Number.Digits
import Formwork.Proofs.Ordered
import Formwork.Proofs.Text.Runs
import Mathlib.Data.List.TakeWhile

/-!
# JSON is read as it was written

The text of a value without doubles is read as that value (`read_text`), provided that its objects
have distinct keys and that none of its integers has more digits than a numeral may have. The latter
leaves out no value that JSON text describes: no text is read as a value with such an integer
(`read_describable`).

A value is read up to its own end. What ends a number is that the text behind it cannot go on with
it, and what stands behind a value inside another is a comma or a closing bracket (`Stops`).
-/

namespace Formwork

namespace Value

/-- A value is another, or stands somewhere in it. -/
inductive Within (inner : Value) : Value → Prop
  | self : Within inner inner
  | item {x : Value} {xs : List Value} : x ∈ xs → Within inner x → Within inner (.list xs)
  | member {m : String × Value} {ms : List (String × Value)} :
      m ∈ ms → Within inner m.2 → Within inner (.object ms)

/-- A value without doubles, with distinct keys in each of its objects. -/
structure Discrete (v : Value) : Prop where
  noDouble : ∀ x, ¬ Within (.float x) v
  keys : ∀ ms, Within (.object ms) v → (Ordered.keys ms).Nodup

/-- A value whose integers can all be written down as numerals. -/
def Describable (v : Value) : Prop := ∀ n, Within (.int n) v → ¬ TooLongToShow n

variable {x : Value} {xs : List Value} {m : String × Value} {ms : List (String × Value)}

theorem Discrete.null : Discrete .null := ⟨nofun, nofun⟩

theorem Discrete.bool (b : Bool) : Discrete (.bool b) := ⟨nofun, nofun⟩

theorem Discrete.int (n : Int) : Discrete (.int n) := ⟨nofun, nofun⟩

theorem Discrete.str (s : String) : Discrete (.str s) := ⟨nofun, nofun⟩

theorem Discrete.list (h : ∀ x ∈ xs, Discrete x) : Discrete (.list xs) where
  noDouble := by
    rintro d (_ | ⟨hx, hd⟩)
    exact (h _ hx).noDouble d hd
  keys := by
    rintro ms (_ | ⟨hx, hms⟩)
    exact (h _ hx).keys ms hms

theorem Discrete.object (hkeys : (Ordered.keys ms).Nodup) (h : ∀ m ∈ ms, Discrete m.2) :
    Discrete (.object ms) where
  noDouble := by
    rintro d (_ | _ | ⟨hm, hd⟩)
    exact (h _ hm).noDouble d hd
  keys := by
    rintro ms' (_ | _ | ⟨hm, hms⟩)
    · exact hkeys
    · exact (h _ hm).keys ms' hms

theorem Discrete.item (h : Discrete (.list xs)) (hx : x ∈ xs) : Discrete x :=
  ⟨fun d hd => h.noDouble d (.item hx hd), fun ms hms => h.keys ms (.item hx hms)⟩

theorem Discrete.member (h : Discrete (.object ms)) (hm : m ∈ ms) : Discrete m.2 :=
  ⟨fun d hd => h.noDouble d (.member hm hd), fun ms hms => h.keys ms (.member hm hms)⟩

theorem Describable.null : Describable .null := nofun

theorem Describable.bool (b : Bool) : Describable (.bool b) := nofun

theorem Describable.int {n : Int} (h : ¬ TooLongToShow n) : Describable (.int n) := by
  rintro n ⟨⟩
  exact h

theorem Describable.float (d : Binary64) : Describable (.float d) := nofun

theorem Describable.str (s : String) : Describable (.str s) := nofun

theorem Describable.list (h : ∀ x ∈ xs, Describable x) : Describable (.list xs) := by
  rintro n (_ | ⟨hx, hn⟩)
  exact h _ hx n hn

theorem Describable.object (h : ∀ m ∈ ms, Describable m.2) : Describable (.object ms) := by
  rintro n (_ | _ | ⟨hm, hn⟩)
  exact h _ hm n hn

theorem Describable.item (h : Describable (.list xs)) (hx : x ∈ xs) : Describable x :=
  fun n hn => h n (.item hx hn)

theorem Describable.member (h : Describable (.object ms)) (hm : m ∈ ms) : Describable m.2 :=
  fun n hn => h n (.member hm hn)

mutual

/-- A value is writable when its integers can all be written down. -/
theorem isWritable_iff_describable : ∀ v : Value, v.isWritable = true ↔ v.Describable
  | .null => iff_of_true rfl .null
  | .bool b => iff_of_true rfl (.bool b)
  | .int n => Proofs.isWritable_iff.trans ⟨.int, fun h => h n .self⟩
  | .float d => iff_of_true rfl (.float d)
  | .str s => iff_of_true rfl (.str s)
  | .list xs => (allWritable_iff xs).trans ⟨.list, fun h _ hx => h.item hx⟩
  | .object ms => (membersWritable_iff ms).trans ⟨.object, fun h _ hm => h.member hm⟩

theorem allWritable_iff : ∀ xs : List Value, allWritable xs = true ↔ ∀ x ∈ xs, x.Describable
  | [] => iff_of_true rfl (List.forall_mem_nil _)
  | x :: xs => by
      rw [allWritable, Bool.and_eq_true, isWritable_iff_describable x, allWritable_iff xs,
        List.forall_mem_cons]

theorem membersWritable_iff : ∀ ms : List (String × Value),
    membersWritable ms = true ↔ ∀ m ∈ ms, m.2.Describable
  | [] => iff_of_true rfl (List.forall_mem_nil _)
  | (_, x) :: ms => by
      rw [membersWritable, Bool.and_eq_true, isWritable_iff_describable x, membersWritable_iff ms,
        List.forall_mem_cons]

end

end Value

end Formwork

namespace Formwork.Proofs

open Formwork Formwork.Json Formwork.Text

/-! ## Numerals -/

section Numerals

variable {n : Nat}

theorem isAsciiDigit_of_mem_toDigits {d : Char} (h : d ∈ Nat.toDigits 10 n) :
    isAsciiDigit d = true :=
  Nat.isDigit_of_mem_toDigits (by omega) (by omega) h

theorem toDigits_cons (n : Nat) :
    ∃ d ds, Nat.toDigits 10 n = d :: ds ∧ isAsciiDigit d = true := by
  cases hdigits : Nat.toDigits 10 n with
  | nil => exact absurd hdigits Nat.toDigits_ne_nil
  | cons d ds =>
      have hd : d ∈ Nat.toDigits 10 n := by
        rw [hdigits]
        exact List.mem_cons_self ..
      exact ⟨d, ds, rfl, isAsciiDigit_of_mem_toDigits hd⟩

/-- No numeral but that of zero starts with a zero. -/
theorem head?_toDigits_ne_zero (h : n ≠ 0) : (Nat.toDigits 10 n).head? ≠ some '0' := by
  induction n using Nat.strongRecOn with
  | ind n ih =>
      by_cases hsmall : n < 10
      · have hall : ∀ n < 10, n ≠ 0 → (Nat.toDigits 10 n).head? ≠ some '0' := by decide
        exact hall n hsmall h
      · rw [Nat.toDigits_of_base_le (by omega) (by omega)]
        have hmore := ih (n / 10) (by omega) (by omega)
        rwa [List.head?_append_of_ne_nil _ Nat.toDigits_ne_nil]

theorem ofDigits_map (cs : List Char) :
    Numeral.ofDigits (cs.map fun c => c.toNat - 48) = Nat.ofDigitChars 10 cs 0 := by
  rw [Numeral.ofDigits, List.foldl_map]
  rfl

/-- What may stand behind a value inside another. -/
def Stops (rest : List Char) : Prop := ∀ c, rest.head? = some c → c ∈ [',', ']', '}']

theorem Stops.nil : Stops [] := nofun

theorem Stops.cons {c : Char} (h : c ∈ [',', ']', '}']) (rest : List Char) : Stops (c :: rest) := by
  rintro d ⟨⟩
  exact h

theorem Stops.head_ne {rest : List Char} (h : Stops rest) {c : Char}
    (hc : c ∉ [',', ']', '}']) : rest.head? ≠ some c :=
  fun hhead => hc (h c hhead)

theorem fractionPart_of_stops {rest : List Char} (h : Stops rest) :
    fractionPart rest = ([], rest) := by
  unfold fractionPart
  split
  · exact absurd rfl (h.head_ne (c := '.') (by decide))
  · rfl

theorem exponentPart_of_stops {rest : List Char} (h : Stops rest) :
    exponentPart rest = (none, rest) := by
  cases rest with
  | nil => rfl
  | cons c rest =>
      have hc : (c == 'e' || c == 'E') = false := by
        have hall : ∀ c ∈ [',', ']', '}'], (c == 'e' || c == 'E') = false := by decide
        exact hall c (h c rfl)
      simp [exponentPart, hc]

/-- The digits in front of a fraction: one zero, or all digits that there are. -/
def wholePart (cs : List Char) : List Char × List Char :=
  match cs with
  | '0' :: rest => (['0'], rest)
  | _ => digits cs

theorem wholePart_toDigits {rest : List Char} (hrest : Stops rest) :
    wholePart (Nat.toDigits 10 n ++ rest) = (Nat.toDigits 10 n, rest) := by
  have hend : ∀ c, rest.head? = some c → isAsciiDigit c = false := by
    intro c hc
    have hall : ∀ c ∈ [',', ']', '}'], isAsciiDigit c = false := by decide
    exact hall c (hrest c hc)
  by_cases hzero : n = 0
  · rw [hzero, Nat.toDigits_zero]
    rfl
  · have hhead : (Nat.toDigits 10 n ++ rest).head? ≠ some '0' := by
      rw [List.head?_append_of_ne_nil _ Nat.toDigits_ne_nil]
      exact head?_toDigits_ne_zero hzero
    unfold wholePart
    split
    · rename_i heq
      rw [heq] at hhead
      exact absurd rfl hhead
    · exact span_append (fun d hd => isAsciiDigit_of_mem_toDigits hd) hend

/-- **A numeral is read as the number that it was written for.** -/
theorem unsigned_toDigits (negative : Bool) (h : n < 10 ^ Numeral.maxDigits) {rest : List Char}
    (hrest : Stops rest) :
    unsigned negative (Nat.toDigits 10 n ++ rest) =
      .ok (.int (if negative then -(n : Int) else n), rest) := by
  have hlength : ¬ Numeral.maxDigits < (Nat.toDigits 10 n).length :=
    fun hlong => absurd ((lt_length_toDigits_iff (by decide)).mp hlong) (Nat.not_le.mpr h)
  have hwhole := wholePart_toDigits (n := n) hrest
  unfold unsigned
  dsimp only
  split
  · rename_i hempty
    have hnil := hwhole.symm.trans hempty
    simp [Nat.toDigits_ne_nil] at hnil
  · rename_i heq
    cases hwhole.symm.trans heq
    simp [fractionPart_of_stops hrest, exponentPart_of_stops hrest, hlength, ofDigits_map]

theorem isAsciiDigit_of_mem_wholePart {cs ds rest : List Char} (h : wholePart cs = (ds, rest))
    {d : Char} (hd : d ∈ ds) : isAsciiDigit d = true := by
  unfold wholePart at h
  split at h
  · cases h
    rw [List.mem_singleton.mp hd]
    rfl
  · rw [digits, List.span_eq_takeWhile_dropWhile] at h
    cases h
    exact List.mem_takeWhile_imp hd

end Numerals

/-! ## Scalars -/

section Scalars

variable {d : Char}

theorem not_mem_of_isAsciiDigit (hd : isAsciiDigit d = true) {cs : List Char}
    (hcs : ∀ c ∈ cs, isAsciiDigit c = false) : d ∉ cs := by
  intro hmem
  rw [hcs d hmem] at hd
  cases hd

theorem isBlank_of_isAsciiDigit (hd : isAsciiDigit d = true) : isBlank d = false := by
  simp only [isAsciiDigit, Bool.and_eq_true, decide_eq_true_eq] at hd
  have hlow : 48 ≤ d.toNat := hd.1
  have hhigh : d.toNat ≤ 57 := hd.2
  simp only [isBlank, Bool.or_eq_false_iff, Bool.and_eq_false_iff, decide_eq_false_iff_not]
  omega

/-- An integer is written by the numeral of its absolute value, behind a sign if it has one. -/
theorem integer_eq (n : Int) :
    integer n = if n < 0 then '-' :: Nat.toDigits 10 n.natAbs else Nat.toDigits 10 n.natAbs := by
  rw [integer, Int.toString_eq_repr, Int.repr_eq_if]
  by_cases hsign : n < 0
  · have habs : (-n).toNat = n.natAbs := by omega
    rw [if_pos hsign, if_neg (Int.not_le.mpr hsign), habs]
    simp
  · have habs : n.toNat = n.natAbs := by omega
    rw [if_neg hsign, if_pos (Int.not_lt.mp hsign), habs]
    simp

theorem word?_digit (hd : isAsciiDigit d = true) (cs : List Char) : word? (d :: cs) = none := by
  have hne : d ∉ ['n', 't', 'f', 'N', 'I', '-'] := not_mem_of_isAsciiDigit hd (by decide)
  simp only [List.mem_cons, List.not_mem_nil, or_false, not_or] at hne
  simp [word?, words, List.isPrefixOf?, hne, eq_comm (b := d)]

theorem word?_minus (hd : isAsciiDigit d = true) (cs : List Char) :
    word? ('-' :: d :: cs) = none := by
  have hne : 'I' ≠ d := by
    rintro rfl
    cases hd
  simp [word?, words, List.isPrefixOf?, hne]

theorem value_plain {c : Char} (hc : c ∉ ['"', '[', '{']) (fuel : Nat) (cs : List Char) :
    value (fuel + 1) (c :: cs) = plain (c :: cs) := by
  simp only [List.mem_cons, List.not_mem_nil, or_false, not_or] at hc
  unfold value
  simp [hc]

/-- An integer is read as it was written. -/
theorem value_integer {n : Int} (h : ¬ TooLongToShow n) (fuel : Nat) {rest : List Char}
    (hrest : Stops rest) : value (fuel + 1) (integer n ++ rest) = .ok (.int n, rest) := by
  have hread := fun negative => unsigned_toDigits negative (Nat.not_le.mp h) hrest
  obtain ⟨d, ds, hdigits, hd⟩ := toDigits_cons n.natAbs
  rw [hdigits] at hread
  rw [integer_eq, hdigits]
  split
  · rw [List.cons_append, value_plain (by decide), plain.eq_1, List.cons_append, word?_minus hd]
    dsimp only
    rw [← List.cons_append, hread, if_pos rfl]
    congr 4
    omega
  · have hminus : ∀ cs, d :: (ds ++ rest) = '-' :: cs → False := by
      rintro cs heq
      cases heq
      cases hd
    rw [List.cons_append, value_plain (not_mem_of_isAsciiDigit hd (by decide)),
      plain.eq_2 _ hminus, word?_digit hd]
    dsimp only
    rw [← List.cons_append, hread, if_neg Bool.false_ne_true]
    congr 3
    omega

end Scalars

/-! ## Values -/

section Values

theorem skipSpace_cons {c : Char} (h : isBlank c = false) (cs : List Char) :
    skipSpace (c :: cs) = c :: cs := by
  have hspaces : ∀ c ∈ [' ', '\t', '\n', '\r'], isBlank c = true := by decide
  have hspace : ¬ isSpace c = true := by
    intro hspace
    simp only [isSpace, Bool.or_eq_true, beq_iff_eq] at hspace
    rw [hspaces c (by simpa [or_assoc] using hspace)] at h
    cases h
  rw [skipSpace, List.dropWhile_cons_of_neg hspace]

/-- The text of a value starts neither with a blank nor with a closing bracket. -/
theorem chars_start {v : Value} (h : v.Discrete) :
    ∃ c cs, chars v = c :: cs ∧ isBlank c = false ∧ c ≠ ']' := by
  cases v with
  | null => exact ⟨_, _, rfl, rfl, by decide⟩
  | bool b => cases b <;> exact ⟨_, _, rfl, rfl, by decide⟩
  | float x => exact absurd .self (h.noDouble x)
  | str s => exact ⟨_, _, rfl, rfl, by decide⟩
  | list xs => exact ⟨_, _, rfl, rfl, by decide⟩
  | object ms => exact ⟨_, _, rfl, rfl, by decide⟩
  | int n =>
      rw [chars, integer_eq]
      split
      · exact ⟨_, _, rfl, rfl, by decide⟩
      · obtain ⟨d, ds, hdigits, hd⟩ := toDigits_cons n.natAbs
        refine ⟨d, ds, hdigits, isBlank_of_isAsciiDigit hd, ?_⟩
        rintro rfl
        cases hd

theorem itemChars_start {x : Value} (h : x.Discrete) (xs : List Value) :
    ∃ c cs, itemChars (x :: xs) = c :: cs ∧ isBlank c = false ∧ c ≠ ']' := by
  obtain ⟨c, cs, hchars, hc⟩ := chars_start h
  cases xs <;> rw [itemChars, hchars]
  · exact ⟨c, cs, rfl, hc⟩
  · exact ⟨c, _, rfl, hc⟩

theorem memberChars_start (m : String × Value) (ms : List (String × Value)) :
    ∃ cs, memberChars (m :: ms) = '"' :: cs := by
  cases ms <;> exact ⟨_, rfl⟩

/-- The reader of members behind the key and the value of the first. -/
theorem members_cons {fuel : Nat} {k : String} {x : Value} {text behind : List Char}
    (hspace : skipSpace text = text) (hread : value fuel text = .ok (x, behind)) :
    members (fuel + 1) (string k ++ ':' :: ' ' :: text) =
      match skipSpace behind with
      | '}' :: after => .ok ([(k, x)], after)
      | ',' :: more => do
        let (ms, after) ← members fuel (skipSpace more)
        .ok ((k, x) :: ms, after)
      | _ => .error .malformed := by
  obtain ⟨body, hbody, hkey⟩ := stringBody?_string k (':' :: ' ' :: text)
  have hcolon : skipSpace (':' :: ' ' :: text) = ':' :: ' ' :: text := skipSpace_cons rfl _
  have hgap : skipSpace (' ' :: text) = skipSpace text := rfl
  rw [hbody, members.eq_2, hkey]
  dsimp only
  rw [hcolon]
  show (value fuel (skipSpace (' ' :: text)) >>= _) = _
  rw [hgap, hspace, hread, String.ofList_toList]
  rfl

mutual

/-- **A value is read as it was written**, whatever may stand behind it. -/
theorem value_chars : ∀ (v : Value), v.Discrete → v.Describable → ∀ {fuel : Nat} {rest : List Char},
    (chars v).length ≤ fuel → Stops rest → value fuel (chars v ++ rest) = .ok (v, rest)
  | v, hdiscrete, _, 0, _, hfuel, _ => by
      -- no value has an empty text, so there was fuel for it
      obtain ⟨c, cs, hchars, -⟩ := chars_start hdiscrete
      rw [hchars] at hfuel
      cases hfuel
  | .null, _, _, fuel + 1, rest, _, _ => value_plain (by decide) fuel _
  | .bool true, _, _, fuel + 1, rest, _, _ => value_plain (by decide) fuel _
  | .bool false, _, _, fuel + 1, rest, _, _ => value_plain (by decide) fuel _
  | .float x, hdiscrete, _, _, _, _, _ => absurd .self (hdiscrete.noDouble x)
  | .int n, _, hshort, fuel + 1, _, _, hrest => value_integer (hshort n .self) fuel hrest
  | .str s, _, _, fuel + 1, rest, _, _ => by
      obtain ⟨body, hbody, hread⟩ := stringBody?_string s rest
      rw [chars, hbody, value.eq_2, hread]
      dsimp only
      rw [String.ofList_toList]
  | .list [], _, _, fuel + 1, rest, _, _ => rfl
  | .list (x :: xs), hdiscrete, hshort, fuel + 1, rest, hfuel, _ => by
      have hitems : items fuel (itemChars (x :: xs) ++ ']' :: rest) = .ok (x :: xs, rest) :=
        items_itemChars x xs (fun _ hy => hdiscrete.item hy) (fun _ hy => hshort.item hy)
          (by simp [chars] at hfuel; omega)
      obtain ⟨c, cs, hchars, hspace, hclosing⟩ :=
        itemChars_start (hdiscrete.item (List.mem_cons_self ..)) xs
      have hbody : chars (.list (x :: xs)) ++ rest = '[' :: c :: (cs ++ ']' :: rest) := by
        simp [chars, hchars]
      rw [hchars] at hitems
      rw [hbody, value.eq_3, skipSpace_cons hspace]
      -- the list is not closed at once, since no item starts with its bracket
      split
      · rename_i heq
        cases heq
        exact absurd rfl hclosing
      · rw [← List.cons_append, hitems]
        rfl
  | .object [], _, _, fuel + 1, rest, _, _ => rfl
  | .object (m :: ms), hdiscrete, hshort, fuel + 1, rest, hfuel, _ => by
      have hmembers : members fuel (memberChars (m :: ms) ++ '}' :: rest) =
          .ok (m :: ms, rest) :=
        members_memberChars m ms (fun _ hy => hdiscrete.member hy) (fun _ hy => hshort.member hy)
          (by simp [chars] at hfuel; omega)
      obtain ⟨cs, hchars⟩ := memberChars_start m ms
      have hbody : chars (.object (m :: ms)) ++ rest = '{' :: '"' :: (cs ++ '}' :: rest) := by
        simp [chars, hchars]
      rw [hchars] at hmembers
      rw [hbody, value.eq_4, skipSpace_cons rfl]
      show (members fuel ('"' :: cs ++ '}' :: rest) >>= _) = _
      rw [hmembers, ok_bind]
      dsimp only
      rw [ofList_of_nodup (hdiscrete.keys _ .self)]

/-- The items of a list are read as they were written. -/
theorem items_itemChars : ∀ (x : Value) (xs : List Value), (∀ y ∈ x :: xs, y.Discrete) →
    (∀ y ∈ x :: xs, y.Describable) → ∀ {fuel : Nat} {rest : List Char},
    (itemChars (x :: xs)).length + 1 ≤ fuel →
    items fuel (itemChars (x :: xs) ++ ']' :: rest) = .ok (x :: xs, rest)
  | x, [], hdiscrete, hshort, fuel + 1, rest, hfuel => by
      have hx : value fuel (chars x ++ ']' :: rest) = .ok (x, ']' :: rest) :=
        value_chars x (hdiscrete x (List.mem_cons_self ..)) (hshort x (List.mem_cons_self ..))
          (Nat.le_of_succ_le_succ hfuel) (.cons (by decide) _)
      rw [itemChars, items.eq_2, hx]
      rfl
  | x, y :: ys, hdiscrete, hshort, fuel + 1, rest, hfuel => by
      obtain ⟨hdiscrete, hdiscretes⟩ := List.forall_mem_cons.mp hdiscrete
      obtain ⟨hshort, hshorts⟩ := List.forall_mem_cons.mp hshort
      have hlength : (chars x).length ≤ fuel ∧ (itemChars (y :: ys)).length + 1 ≤ fuel := by
        simp [itemChars] at hfuel
        omega
      have hx : value fuel (chars x ++ ',' :: ' ' :: (itemChars (y :: ys) ++ ']' :: rest)) = _ :=
        value_chars x hdiscrete hshort hlength.1 (.cons (by decide) _)
      have hmore : items fuel (itemChars (y :: ys) ++ ']' :: rest) = _ :=
        items_itemChars y ys hdiscretes hshorts hlength.2
      obtain ⟨c, cs, hchars, hspace, -⟩ :=
        itemChars_start (hdiscretes y (List.mem_cons_self ..)) ys
      have hgap : skipSpace (' ' :: (itemChars (y :: ys) ++ ']' :: rest)) =
          itemChars (y :: ys) ++ ']' :: rest := by
        rw [hchars]
        exact skipSpace_cons hspace _
      have hcomma : ∀ cs, skipSpace (',' :: cs) = ',' :: cs := skipSpace_cons rfl
      rw [itemChars, List.append_assoc, List.cons_append, List.cons_append, items.eq_2, hx, ok_bind]
      dsimp only
      rw [hcomma]
      show (items fuel (skipSpace (' ' :: (itemChars (y :: ys) ++ ']' :: rest))) >>= _) = _
      rw [hgap, hmore, ok_bind]

/-- The members of an object are read as they were written. -/
theorem members_memberChars : ∀ (m : String × Value) (ms : List (String × Value)),
    (∀ n ∈ m :: ms, n.2.Discrete) → (∀ n ∈ m :: ms, n.2.Describable) →
    ∀ {fuel : Nat} {rest : List Char}, (memberChars (m :: ms)).length + 1 ≤ fuel →
    members fuel (memberChars (m :: ms) ++ '}' :: rest) = .ok (m :: ms, rest)
  | (k, x), [], hdiscrete, hshort, fuel + 1, rest, hfuel => by
      have hlength : (chars x).length ≤ fuel := by
        simp [memberChars] at hfuel
        omega
      have hx : value fuel (chars x ++ '}' :: rest) = _ :=
        value_chars x (hdiscrete _ (List.mem_cons_self ..)) (hshort _ (List.mem_cons_self ..))
          hlength (.cons (by decide) _)
      obtain ⟨c, cs, hchars, hspace, -⟩ := chars_start (hdiscrete _ (List.mem_cons_self ..))
      have hstart : skipSpace (chars x ++ '}' :: rest) = chars x ++ '}' :: rest := by
        rw [hchars]
        exact skipSpace_cons hspace _
      rw [memberChars, List.append_assoc, List.cons_append, List.cons_append,
        members_cons hstart hx]
      rfl
  | (k, x), m :: ms, hdiscrete, hshort, fuel + 1, rest, hfuel => by
      obtain ⟨hdiscrete, hdiscretes⟩ := List.forall_mem_cons.mp hdiscrete
      obtain ⟨hshort, hshorts⟩ := List.forall_mem_cons.mp hshort
      have hlength : (chars x).length ≤ fuel ∧ (memberChars (m :: ms)).length + 1 ≤ fuel := by
        simp [memberChars] at hfuel
        omega
      have hx : value fuel (chars x ++ ',' :: ' ' :: (memberChars (m :: ms) ++ '}' :: rest)) = _ :=
        value_chars x hdiscrete hshort hlength.1 (.cons (by decide) _)
      have hmore : members fuel (memberChars (m :: ms) ++ '}' :: rest) = _ :=
        members_memberChars m ms hdiscretes hshorts hlength.2
      obtain ⟨c, cs, hchars, hspace, -⟩ := chars_start hdiscrete
      have hstart : ∀ rest, skipSpace (chars x ++ rest) = chars x ++ rest := by
        rw [hchars]
        exact fun rest => skipSpace_cons hspace _
      obtain ⟨ds, hmarks⟩ := memberChars_start m ms
      have hgap : skipSpace (' ' :: (memberChars (m :: ms) ++ '}' :: rest)) =
          memberChars (m :: ms) ++ '}' :: rest := by
        rw [hmarks]
        exact skipSpace_cons (c := '"') rfl _
      have hcomma : ∀ cs, skipSpace (',' :: cs) = ',' :: cs := skipSpace_cons rfl
      have hbody : memberChars ((k, x) :: m :: ms) ++ '}' :: rest = string k ++ ':' :: ' ' ::
          (chars x ++ ',' :: ' ' :: (memberChars (m :: ms) ++ '}' :: rest)) := by
        simp [memberChars]
      rw [hbody, members_cons (hstart _) hx, hcomma]
      show (members fuel (skipSpace (' ' :: (memberChars (m :: ms) ++ '}' :: rest))) >>= _) = _
      rw [hgap, hmore, ok_bind]

end

/-- **The text of a value is read as that value.** -/
theorem read_text {v : Value} (hdiscrete : v.Discrete) (hshort : v.Describable) :
    Json.read (text v) = .ok v := by
  obtain ⟨c, cs, hchars, hspace, -⟩ := chars_start hdiscrete
  have hstart : skipSpace (chars v) = chars v := by
    rw [hchars]
    exact skipSpace_cons hspace _
  have hread := value_chars v hdiscrete hshort (Nat.le_succ _) Stops.nil
  rw [List.append_nil] at hread
  rw [Json.read, text, String.toList_ofList, hstart, hread]
  rfl

end Values

/-! ## What JSON text describes -/

section Described

variable {cs rest : List Char} {v : Value}

theorem describable_of_word (h : word? cs = some (v, rest)) : v.Describable := by
  obtain ⟨w, hw, hfound⟩ := List.exists_of_findSome?_eq_some h
  obtain ⟨after, -, heq⟩ := Option.map_eq_some_iff.mp hfound
  cases heq
  simp only [words, List.mem_cons, List.not_mem_nil, or_false] at hw
  rcases hw with rfl | rfl | rfl | rfl | rfl | rfl
  · exact .null
  · exact .bool true
  · exact .bool false
  · exact .float _
  · exact .float _
  · exact .float _

/-- The limit of integer numerals is that of the integers that are shown. -/
theorem describable_of_unsigned {negative : Bool} (h : unsigned negative cs = .ok (v, rest)) :
    v.Describable := by
  unfold unsigned at h
  dsimp only at h
  split at h
  · cases h
  rename_i ds after hne hwhole
  split at h
  · split at h
    · cases h
    rename_i hshort
    rw [ofDigits_map] at h
    have hlt : Nat.ofDigitChars 10 ds 0 < (0 + 1) * 10 ^ ds.length :=
      ofDigitChars_lt (fun d hd => isAsciiDigit_of_mem_wholePart hwhole hd) 0
    rw [Nat.zero_add, Nat.one_mul] at hlt
    have hle : 10 ^ ds.length ≤ 10 ^ Numeral.maxDigits :=
      Nat.pow_le_pow_right (by decide) (Nat.not_lt.mp hshort)
    cases h
    refine .int ?_
    rw [TooLongToShow, Nat.not_le]
    refine Nat.lt_of_lt_of_le ?_ hle
    split
    · rwa [Int.natAbs_neg, Int.natAbs_natCast]
    · rwa [Int.natAbs_natCast]
  · cases h
    exact .float _

theorem describable_of_plain (h : plain cs = .ok (v, rest)) : v.Describable := by
  unfold plain at h
  split at h
  · rename_i found hword
    cases h
    exact describable_of_word hword
  · split at h
    · exact describable_of_unsigned h
    · exact describable_of_unsigned h

mutual

theorem describable_of_value : ∀ {fuel : Nat} {cs : List Char} {v : Value} {rest : List Char},
    value fuel cs = .ok (v, rest) → v.Describable
  | 0, _, _, _, h => by cases h
  | fuel + 1, cs, v, rest, h => by
      unfold value at h
      split at h
      · split at h
        · cases h
          exact .str _
        · cases h
      · split at h
        · cases h
          exact .list nofun
        · obtain ⟨⟨xs, after⟩, hitems, heq⟩ := bind_eq_ok.mp h
          cases heq
          exact .list (describable_of_items hitems)
      · split at h
        · cases h
          exact .object nofun
        · obtain ⟨⟨ms, after⟩, hmembers, heq⟩ := bind_eq_ok.mp h
          cases heq
          exact .object fun m hm => describable_of_members hmembers m (mem_of_ofList hm)
      · exact describable_of_plain h

theorem describable_of_items : ∀ {fuel : Nat} {cs : List Char} {xs : List Value}
    {rest : List Char}, items fuel cs = .ok (xs, rest) → ∀ x ∈ xs, x.Describable
  | 0, _, _, _, h => by cases h
  | fuel + 1, cs, xs, rest, h => by
      rw [items.eq_2] at h
      obtain ⟨⟨x, behind⟩, hvalue, h⟩ := bind_eq_ok.mp h
      have hx := describable_of_value hvalue
      dsimp only at h
      split at h
      · cases h
        exact List.forall_mem_singleton.mpr hx
      · obtain ⟨⟨more, after⟩, hmore, heq⟩ := bind_eq_ok.mp h
        cases heq
        exact List.forall_mem_cons.mpr ⟨hx, describable_of_items hmore⟩
      · cases h

theorem describable_of_members : ∀ {fuel : Nat} {cs : List Char} {ms : List (String × Value)}
    {rest : List Char}, members fuel cs = .ok (ms, rest) → ∀ m ∈ ms, m.2.Describable
  | 0, _, _, _, h => by cases h
  | fuel + 1, cs, ms, rest, h => by
      unfold members at h
      split at h
      · split at h
        · cases h
        · split at h
          · obtain ⟨⟨x, behind⟩, hvalue, h⟩ := bind_eq_ok.mp h
            have hx := describable_of_value hvalue
            dsimp only at h
            split at h
            · cases h
              exact List.forall_mem_singleton.mpr hx
            · obtain ⟨⟨more, after⟩, hmore, heq⟩ := bind_eq_ok.mp h
              cases heq
              exact List.forall_mem_cons.mpr ⟨hx, describable_of_members hmore⟩
            · cases h
          · cases h
      · cases h

end

/-- **No text is read as a value with an integer that has too many digits.** -/
theorem read_describable {text : String} (h : Json.read text = .ok v) : v.Describable := by
  obtain ⟨⟨w, behind⟩, hvalue, h⟩ := bind_eq_ok.mp h
  dsimp only at h
  split at h
  · cases h
    exact describable_of_value hvalue
  · cases h

end Described

end Formwork.Proofs
