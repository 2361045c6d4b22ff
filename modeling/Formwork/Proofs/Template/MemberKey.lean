import Formwork.Proofs.Template.Words

/-!
# Members by their keys

A segment of a path names the member of an object whose key it is, however the key is spelled: it
may be the name of a helper or a constant, `this`, or no identifier at all. A segment of digit forms
is the exception. It is an index, and no key of an object is one, so that a member with such a key
is not found (`member_by_key`).
-/

namespace Formwork.Proofs

open Formwork Formwork.Template Formwork.Text

/-- What is inside a template for a member of the object `o`. -/
def memberOf (key : List Char) : List Char := 'o' :: '.' :: key

/-- A word with a point in it is neither a helper nor a constant. -/
theorem pointed_word {word : String} (h : '.' ∈ word.toList) :
    Helper.ofName? word = none ∧ word ∉ ["true", "false", "null", "undefined"] := by
  constructor
  · rw [Helper.ofName?, List.find?_eq_none]
    intro helper _ heq
    rw [← eq_of_beq heq] at h
    revert h
    cases helper <;> decide
  · intro hmem
    have hall : ∀ w ∈ ["true", "false", "null", "undefined"], '.' ∉ w.toList := by decide
    exact hall word hmem h

section Member

variable {key : List Char}

theorem memberOf_chars (h : PlainWord key) :
    ∀ c ∈ memberOf key, Token.isWordPart c = true ∧ c ∉ ['=', '{', '}', '~'] := by
  refine List.forall_mem_cons.mpr ⟨by decide, List.forall_mem_cons.mpr ⟨by decide, fun c hc => ?_⟩⟩
  exact ⟨h.isWordPart hc, h.avoids (by decide) hc⟩

theorem memberOf_sole (h : PlainWord key) : Sole (memberOf key) where
  nonempty := nofun
  noBrace := fun c hc hmem =>
    (memberOf_chars h c hc).2 (List.mem_cons_of_mem _ (List.mem_append_left ['~'] hmem))
  start := by
    rintro c ⟨⟩
    decide
  ending := fun c hc => by
    obtain ⟨hpart, hsigns⟩ := memberOf_chars h c (List.mem_of_getLast? hc)
    refine ⟨(isWordPart_eq_true_iff.mp hpart).1, ?_⟩
    rintro rfl
    exact hsigns (by decide)
  notElse := nofun

/-- The path goes to the object, and from there by the segment of the key. -/
theorem read_memberOf (h : PlainWord key) :
    Expr.read [] (String.ofList (memberOf key)) =
      (Step.ofSegment (String.ofList key)).map fun step =>
        .reference ⟨.context, [.key "o", step]⟩ := by
  have hchars := memberOf_chars h
  have hpoint : '.' ∈ (String.ofList (memberOf key)).toList := by
    rw [String.toList_ofList]
    simp [memberOf]
  obtain ⟨hhelper, hconstant⟩ := pointed_word hpoint
  have hequals : '=' ∉ memberOf key := fun hmem => (hchars _ hmem).2 (by decide)
  have hsegments : ((memberOf key).splitOn '.').filter (!·.isEmpty) = ["o".toList, key] := by
    have hkey : key.splitOn '.' = [key] := List.splitOn_eq_singleton (h.not_mem (by decide))
    simp [memberOf, List.splitOn_cons_eq_if_modifyHead, hkey, h.nonempty]
  have hobject : Step.ofSegment (String.ofList "o".toList) = .ok (.key "o") := rfl
  rw [read_word (fun c hc => (hchars c hc).1) nofun (isNumber_of_head (by decide) (by decide) _)
      hhelper,
    ofWord_of_not_mem hconstant,
    ofPath_root hequals (by simp [memberOf]) (by simp [memberOf]) hsegments (by decide),
    List.mapM_cons, List.mapM_cons, List.mapM_nil, hobject]
  cases Step.ofSegment (String.ofList key) <;> rfl

/-- The value of the template is what the segment of the key leads to in the object. -/
theorem evaluateNative_memberOf (h : PlainWord key) (o : Members) :
    evaluateNative defaultRules (.str (mustache (memberOf key))) [("o", .object o)] =
      match Step.ofSegment (String.ofList key) with
      | .ok step => ((Operand.value (.object o)).step step).toValue
      | .error _ => .null := by
  rw [(memberOf_sole h).evaluateNative_eq, evaluateExpression, read_memberOf h]
  cases Step.ofSegment (String.ofList key) <;> rfl

end Member

theorem ofSegment_digits {segment : String} (h : isDigits segment.toList = true) {step : Step}
    (hstep : Step.ofSegment segment = .ok step) : ∃ n, step = .index n := by
  rw [Step.ofSegment, if_pos h] at hstep
  split at hstep
  · cases hstep
    exact ⟨_, rfl⟩
  · cases hstep
  · cases hstep

theorem mustache_memberOf (key : String) :
    "\x7b\x7bo." ++ key ++ "\x7d\x7d" = mustache (memberOf key.toList) :=
  eq_mustache (by simp [memberOf])

/--
**A member is read by its key, unless the key is all digits.**

The key is any word without the characters that end a word or a segment, or are signs of paths or
mustaches, and without wide characters. If it is made of digit forms, nothing is read.
-/
theorem member_by_key (key : String) (hkey : PlainWord key.toList)
    (hnarrow : ∀ c ∈ key.toList, Operand.isWide c = false) (o : Members) :
    evaluateNative defaultRules (.str ("\x7b\x7bo." ++ key ++ "\x7d\x7d")) [("o", .object o)] =
      if isDigits key.toList then .null else (Ordered.get? o key).getD .null := by
  rw [mustache_memberOf, evaluateNative_memberOf hkey, String.ofList_toList]
  by_cases hdigits : isDigits key.toList = true
  · -- the digits are refused as a numeral, or they are an index
    rw [if_pos hdigits]
    cases hstep : Step.ofSegment key with
    | error fault => rfl
    | ok step =>
        obtain ⟨n, rfl⟩ := ofSegment_digits hdigits hstep
        rfl
  · have hstep : Step.ofSegment key = .ok (.key key) := if_neg hdigits
    have hwide : ¬ key.toList.any Operand.isWide = true := by simpa using hnarrow
    have hget : (Operand.value (.object o)).step (.key key) = .ofOption (Ordered.get? o key) :=
      if_neg hwide
    rw [if_neg hdigits, hstep]
    dsimp only
    rw [hget]
    cases Ordered.get? o key <;> rfl

/-- An object whose keys are a constant, no identifier, and digits. -/
def oddMembers : Members := [("null", .int 1), ("this-é#", .int 2), ("12", .int 3)]

/-- The first two are read. The third is not, and neither is a key that is not there. -/
theorem member_by_key_odd :
    evaluateNative defaultRules (.str ("\x7b\x7bo." ++ "null" ++ "\x7d\x7d"))
        [("o", .object oddMembers)] = .int 1
      ∧ evaluateNative defaultRules (.str ("\x7b\x7bo." ++ "this-é#" ++ "\x7d\x7d"))
        [("o", .object oddMembers)] = .int 2
      ∧ evaluateNative defaultRules (.str ("\x7b\x7bo." ++ "12" ++ "\x7d\x7d"))
        [("o", .object oddMembers)] = .null
      ∧ evaluateNative defaultRules (.str ("\x7b\x7bo." ++ "length" ++ "\x7d\x7d"))
        [("o", .object oddMembers)] = .null := by
  have hread := fun key hkey hnarrow => member_by_key key hkey hnarrow oddMembers
  refine ⟨?_, ?_, ?_, ?_⟩
  · rw [hread "null" ⟨by decide, by decide, by decide⟩ (by decide)]
    rfl
  · rw [hread "this-é#" ⟨by decide, by decide, by decide⟩ (by decide)]
    rfl
  · rw [hread "12" ⟨by decide, by decide, by decide⟩ (by decide)]
    rfl
  · rw [hread "length" ⟨by decide, by decide, by decide⟩ (by decide)]
    rfl

/-- A key of digits is not found in an object that has it. -/
theorem digit_key_lost :
    evaluateNative defaultRules (.str "\x7b\x7bo.0\x7d\x7d") [("o", .object [("0", .str "a")])] =
      .null := by
  have hsource : "\x7b\x7bo.0\x7d\x7d" = mustache (memberOf ['0']) := by decide
  have hplain : PlainWord ['0'] := ⟨by decide, by decide, by decide⟩
  have hstep : Step.ofSegment (String.ofList ['0']) = .ok (.index 0) := by decide
  rw [hsource, evaluateNative_memberOf hplain, hstep]
  rfl

end Formwork.Proofs
