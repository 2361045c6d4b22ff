import Formwork.Proofs.Values.Meaning
import Formwork.Template.Operand

/-!
# Equality and the parts of values

The helper that compares two values keeps booleans apart from numbers, but what is inside them it
compares as the parts of any values are compared, where a boolean is the same as the number that it
counts as (`Confused`). So lists are equal item by item and objects key by key, up to such pairs
(`equal_list_iff`, `equal_object_iff`), and a boolean and another number at one position inside of
both keep them apart (`Faces.equal_eq_false`).

Looking for an item is comparing with the items themselves. It is comparing the list with what it
becomes when the item is put in, unless the item and the one that it is put for are such a pair.
-/

namespace Formwork.Proofs

open Formwork Formwork.Template

/-- One of the values is a boolean, and the other is no boolean but the number that it counts as. -/
structure Confused (x y : Value) : Prop where
  kinds : x.isBool ≠ y.isBool
  numbers : ∃ v, x.number? = some v ∧ y.number? = some v

/-- The values stand at the same position inside of two others. -/
inductive Faces : Value → Value → Value → Value → Prop where
  | here {a b : Value} : Faces a b a b
  | item {xs ys : List Value} {i : Nat} {x y u v : Value} :
      xs[i]? = some x → ys[i]? = some y → Faces x y u v → Faces (.list xs) (.list ys) u v
  | member {ms ns : Members} {key : String} {x y u v : Value} :
      Ordered.get? ms key = some x → Ordered.get? ns key = some y → Faces x y u v →
      Faces (.object ms) (.object ns) u v

section Pairs

variable {x y : Value}

theorem equal_eq_true_iff : x.equal y = true ↔ x.isBool = y.isBool ∧ x.same y = true := by
  rw [Value.equal, Bool.and_eq_true, beq_iff_eq]

theorem equal_of_isBool_ne (h : x.isBool ≠ y.isBool) : x.equal y = false := by
  rw [← Bool.not_eq_true, equal_eq_true_iff]
  exact fun heq => h heq.1

/-- Where one is a boolean, both are compared as numbers. -/
theorem same_iff_of_isBool_ne (h : x.isBool ≠ y.isBool) :
    x.same y = true ↔ ∃ v, x.number? = some v ∧ y.number? = some v := by
  have hscalar : x.same y = Value.sameScalar x y := by
    cases x <;> cases y <;> first | rfl | exact absurd rfl h
  have hkinds : ∀ {a b : Value}, a.isBool = b.isBool → x = a → y = b → False := by
    rintro a b heq rfl rfl
    exact h heq
  rw [hscalar, Value.sameScalar.eq_4 _ _ (hkinds rfl) (fun _ _ => hkinds rfl)
    fun _ _ => hkinds rfl]
  cases x.number? with
  | none => simp
  | some v =>
      cases y.number? with
      | none => simp
      | some w =>
          rw [beq_iff_eq]
          constructor
          · rintro rfl
            exact ⟨v, rfl, rfl⟩
          · rintro ⟨u, hv, hw⟩
            exact (Option.some.inj hv).trans (Option.some.inj hw).symm

/-- **Values are the same when they are equal or confused.** -/
theorem same_iff_equal_or : x.same y = true ↔ x.equal y = true ∨ Confused x y := by
  by_cases h : x.isBool = y.isBool
  · rw [equal_eq_true_iff, and_iff_right h]
    exact (or_iff_left fun hconfused => hconfused.kinds h).symm
  · rw [equal_of_isBool_ne h, same_iff_of_isBool_ne h]
    constructor
    · exact fun hnumbers => .inr ⟨h, hnumbers⟩
    · rintro (hequal | hconfused)
      · cases hequal
      · exact hconfused.numbers

end Pairs

/-! ## Parts -/

section Parts

theorem sameItems_eq_true_iff {xs ys : List Value} : Value.sameItems xs ys = true ↔
    xs.length = ys.length ∧ ∀ (i : Nat) (x y : Value), xs[i]? = some x → ys[i]? = some y →
      x.same y = true := by
  induction xs generalizing ys with
  | nil => cases ys <;> simp [Value.sameItems]
  | cons x xs ih =>
      cases ys with
      | nil => simp [Value.sameItems]
      | cons y ys =>
          rw [Value.sameItems, Bool.and_eq_true, ih, List.length_cons, List.length_cons,
            Nat.add_right_cancel_iff]
          constructor
          · rintro ⟨hfirst, hlength, hrest⟩
            refine ⟨hlength, fun i u v hu hv => ?_⟩
            cases i with
            | zero =>
                cases hu
                cases hv
                exact hfirst
            | succ i => exact hrest i u v hu hv
          · rintro ⟨hlength, hall⟩
            exact ⟨hall 0 x y rfl rfl, hlength, fun i => hall (i + 1)⟩

/-- **Lists are equal item by item, up to pairs that are confused.** -/
theorem equal_list_iff (xs ys : List Value) :
    (Value.list xs).equal (.list ys) = true ↔
      xs.length = ys.length ∧ ∀ (i : Nat) (x y : Value), xs[i]? = some x → ys[i]? = some y →
        x.equal y = true ∨ Confused x y := by
  have hsame : (Value.list xs).equal (.list ys) = Value.sameItems xs ys := by
    rw [Value.equal, Value.same]
    rfl
  rw [hsame, sameItems_eq_true_iff]
  simp only [same_iff_equal_or]

/-- **Objects are equal key by key, up to pairs that are confused.** -/
theorem equal_object_iff {ms ns : Members} (hms : Proper (.object ms)) (hns : Proper (.object ns)) :
    (Value.object ms).equal (.object ns) = true ↔
      (∀ key, Ordered.has ms key = Ordered.has ns key) ∧
        ∀ (key : String) (x y : Value), Ordered.get? ms key = some x →
          Ordered.get? ns key = some y → x.equal y = true ∨ Confused x y := by
  have hsame : (Value.object ms).equal (.object ns) = (Value.object ms).same (.object ns) := rfl
  have hmeanings : meaning (.object ms) = meaning (.object ns) ↔
      ∀ key, (Ordered.get? ms key).map meaning = (Ordered.get? ns key).map meaning := by
    rw [meaning, meaning, meaningWith, meaningWith, Meaning.object.injEq, funext_iff]
    simp only [memberMeaning?_eq]
    rfl
  rw [hsame, same_iff _ _ (hms.keyed _) hns, hmeanings, ← forall_and]
  refine forall_congr' fun key => ?_
  rw [Proper] at hms hns
  rw [Ordered.has, Ordered.has]
  cases hx : Ordered.get? ms key with
  | none => cases Ordered.get? ns key <;> simp
  | some x =>
      cases hy : Ordered.get? ns key with
      | none => simp
      | some y =>
          have hproper : Proper x ∧ Proper y :=
            ⟨hms.2.mem (mem_of_get? hx), hns.2.mem (mem_of_get? hy)⟩
          have hpair := same_iff x y hproper.1.keyed hproper.2
          simp [← same_iff_equal_or, ← hpair]

end Parts

section Positions

variable {a b u v : Value}

/-- What is the same is the same at every position inside. -/
theorem Faces.same (h : Faces a b u v) (ha : Proper a) (hb : Proper b) (hsame : a.same b = true) :
    u.same v = true := by
  induction h with
  | here => exact hsame
  | item hx hy _ ih =>
      rw [Proper] at ha hb
      rw [Value.same, sameItems_eq_true_iff] at hsame
      exact ih (ha.mem (List.mem_of_getElem? hx)) (hb.mem (List.mem_of_getElem? hy))
        (hsame.2 _ _ _ hx hy)
  | member hx hy _ ih =>
      have hequal := (equal_object_iff ha hb).mp hsame
      rw [Proper] at ha hb
      exact ih (ha.2.mem (mem_of_get? hx)) (hb.2.mem (mem_of_get? hy))
        (same_iff_equal_or.mpr (hequal.2 _ _ _ hx hy))

/-- **Values that hold a boolean and another number at one position are not equal.** -/
theorem Faces.equal_eq_false (h : Faces a b u v) (ha : Proper a) (hb : Proper b)
    (hkinds : u.isBool ≠ v.isBool) (hother : ¬ Confused u v) : a.equal b = false := by
  rw [← Bool.not_eq_true, equal_eq_true_iff]
  rintro ⟨-, hsame⟩
  have hfaced := h.same ha hb hsame
  exact hother ⟨hkinds, (same_iff_of_isBool_ne hkinds).mp hfaced⟩

end Positions

section Items

variable {xs : List Value} {x : Value}

theorem equal_self (h : Proper x) : x.equal x = true :=
  equal_eq_true_iff.mpr ⟨rfl, same_self x h⟩

/-- **A list holds an item if it equals what it becomes when the item is put in for one that is not
confused with it.** -/
theorem any_equal_iff (hxs : Proper (.list xs)) :
    xs.any (fun y => y.equal x) = true ↔
      ∃ i y, xs[i]? = some y ∧ ¬ Confused y x ∧
        (Value.list xs).equal (.list (xs.set i x)) = true := by
  rw [Proper] at hxs
  rw [List.any_eq_true]
  constructor
  · rintro ⟨y, hy, hequal⟩
    obtain ⟨i, hi⟩ := List.getElem?_of_mem hy
    refine ⟨i, y, hi, fun hconfused => hconfused.kinds (equal_eq_true_iff.mp hequal).1, ?_⟩
    rw [equal_list_iff, List.length_set]
    refine ⟨rfl, fun j u v hu hv => ?_⟩
    rw [List.getElem?_set] at hv
    split at hv
    · -- where the item is put in
      rename_i hij
      subst hij
      obtain rfl : y = u := Option.some.inj (hi.symm.trans hu)
      split at hv
      · cases hv
        exact .inl hequal
      · cases hv
    · obtain rfl : u = v := Option.some.inj (hu.symm.trans hv)
      exact .inl (equal_self (hxs.mem (List.mem_of_getElem? hu)))
  · rintro ⟨i, y, hi, hother, hequal⟩
    have hput : (xs.set i x)[i]? = some x := by
      rw [List.getElem?_set_self (List.getElem?_eq_some_iff.mp hi).1]
    have hpair := ((equal_list_iff _ _).mp hequal).2 i y x hi hput
    exact ⟨y, List.mem_of_getElem? hi, hpair.resolve_right hother⟩

end Items

/--
**Equality is a congruence but for booleans inside of values, which it takes for numbers.**

The helpers always answer. A boolean equals no value of another kind. Lists are equal when they are
as long and equal item by item, objects when they have the same keys and are equal key by key, where
a boolean and the number that it counts as may stand for each other; a boolean and any other number
at one position inside keep values apart. A list holds an item exactly if it equals the list with
the item in the place of one of its own that is not confused with it.
-/
theorem equality_of_parts (a b : Value) (ha : Proper a) (hb : Proper b) :
    Helper.call .eq [.value a, .value b] = .ok (.value (.bool (a.equal b)))
      ∧ (a.isBool ≠ b.isBool → a.equal b = false)
      ∧ (∀ xs ys : List Value, a = .list xs → b = .list ys →
        (a.equal b = true ↔
          xs.length = ys.length ∧ ∀ (i : Nat) (x y : Value), xs[i]? = some x → ys[i]? = some y →
            x.equal y = true ∨ Confused x y))
      ∧ (∀ ms ns : Members, a = .object ms → b = .object ns →
        (a.equal b = true ↔
          (∀ key, Ordered.has ms key = Ordered.has ns key) ∧
            ∀ (key : String) (x y : Value), Ordered.get? ms key = some x →
              Ordered.get? ns key = some y → x.equal y = true ∨ Confused x y))
      ∧ (∀ u v : Value, Faces a b u v → u.isBool ≠ v.isBool → ¬ Confused u v → a.equal b = false)
      ∧ ∀ xs : List Value, a = .list xs →
        Helper.call .contains [.value a, .value b] =
            .ok (.value (.bool (xs.any fun y => y.equal b)))
          ∧ (xs.any (fun y => y.equal b) = true ↔
            ∃ i y, xs[i]? = some y ∧ ¬ Confused y b ∧ a.equal (.list (xs.set i b)) = true) := by
  refine ⟨rfl, equal_of_isBool_ne, ?_, ?_, fun _ _ h => h.equal_eq_false ha hb, ?_⟩
  · rintro xs ys rfl rfl
    exact equal_list_iff xs ys
  · rintro ms ns rfl rfl
    exact equal_object_iff ha hb
  · rintro xs rfl
    exact ⟨rfl, any_equal_iff ha⟩

/-- What is known of a guest: tags, and a score. -/
def guest (tag score : Value) : Value := .object [("tags", .list [tag]), ("score", score)]

/-- A score is the same as a double, and a tag that is true is not the same as a two. -/
theorem equality_of_parts_guest :
    Proper (guest (.bool true) (.int 2)) ∧ Proper (guest (.int 2) (.int 2))
      ∧ Proper (guest (.bool true) (.float (.finite 2)))
      ∧ Helper.call .eq [.value (guest (.bool true) (.int 2)),
        .value (guest (.bool true) (.float (.finite 2)))] = .ok (.value (.bool true))
      ∧ Helper.call .eq [.value (guest (.bool true) (.int 2)), .value (guest (.int 2) (.int 2))] =
        .ok (.value (.bool false))
      ∧ Helper.call .contains [.value (.list [.int 2, .str "DE"]), .value (.str "DE")] =
        .ok (.value (.bool true)) := by
  have hproper : ∀ tag score : Value, Proper tag → Proper score → Proper (guest tag score) := by
    intro tag score htag hscore
    simp [guest, Proper, ProperMembers, ProperItems, Ordered.keys, htag, hscore]
  have htrue : Proper (guest (.bool true) (.int 2)) :=
    hproper _ _ (by simp [Proper]) (by simp [Proper])
  have htwo : Proper (guest (.int 2) (.int 2)) := hproper _ _ (by simp [Proper]) (by simp [Proper])
  have hdouble : Proper (guest (.bool true) (.float (.finite 2))) :=
    hproper _ _ (by simp [Proper]) (by simp [Proper])
  have hlist : Proper (.list [.int 2, .str "DE"]) := by simp [Proper, ProperItems]
  refine ⟨htrue, htwo, hdouble, ?_, ?_, ?_⟩
  · have hequal : (guest (.bool true) (.int 2)).equal (guest (.bool true) (.float (.finite 2))) =
        true := by decide
    obtain ⟨heq, -⟩ := equality_of_parts _ _ htrue hdouble
    rw [heq, hequal]
  · have hfaced : Faces (guest (.bool true) (.int 2)) (guest (.int 2) (.int 2))
        (.bool true) (.int 2) :=
      .member (show Ordered.get? _ "tags" = some (.list [.bool true]) from rfl)
        (show Ordered.get? _ "tags" = some (.list [.int 2]) from rfl) (.item (i := 0) rfl rfl .here)
    have hother : ¬ Confused (.bool true) (.int 2) := by
      rintro ⟨-, v, htrue, htwo⟩
      have hsame : (1 : Dyadic) = Dyadic.ofInt 2 :=
        (Option.some.inj htrue).trans (Option.some.inj htwo).symm
      exact absurd hsame (by decide)
    obtain ⟨heq, -, -, -, hfaces, -⟩ := equality_of_parts _ _ htrue htwo
    rw [heq, hfaces _ _ hfaced (by decide) hother]
  · obtain ⟨-, -, -, -, -, hcontains⟩ :=
      equality_of_parts (.list [.int 2, .str "DE"]) (.str "DE") hlist (by simp [Proper])
    obtain ⟨hcalled, hany⟩ := hcontains _ rfl
    have hheld : [Value.int 2, .str "DE"].any (fun y => y.equal (.str "DE")) = true := by
      refine hany.mpr ⟨1, .str "DE", rfl, fun h => h.kinds rfl, ?_⟩
      decide
    rw [hcalled, hheld]

/-- Inside of a list true is taken for a one, although the two are not equal, and the list does not
hold the other. -/
theorem listed_truth_equal :
    Helper.call .eq [.value (.list [.bool true]), .value (.list [.int 1])] =
        .ok (.value (.bool true))
      ∧ Helper.call .eq [.value (.bool true), .value (.int 1)] = .ok (.value (.bool false))
      ∧ Helper.call .contains [.value (.list [.bool true]), .value (.int 1)] =
        .ok (.value (.bool false)) := by
  have hlists : (Value.list [.bool true]).equal (.list [.int 1]) = true := by decide
  refine ⟨?_, rfl, rfl⟩
  show Except.ok (Operand.value (.bool ((Value.list [.bool true]).equal (.list [.int 1])))) = _
  rw [hlists]

end Formwork.Proofs
