import Formwork.Proofs.Context.Change
import Mathlib.Data.List.Perm.Subperm

/-!
# What values stand for

Values are compared by what they stand for: numbers by their size, whatever their kind, objects
by what their keys lead to, whatever the order. `meaning` makes this a function, so that
sameness is equality of meanings (`same_iff`), and with it an equivalence, wherever there is no
NaN, which stands for nothing that could be compared.

A comparison takes true for one and false for zero. `strictMeaning` keeps them apart.
-/

namespace Formwork.Proofs

open Formwork

/-! ## Meanings -/

/-- What a value can stand for. Of an object only the members under its keys count. -/
inductive Meaning where
  | null
  | truth (b : Bool)
  | text (s : String)
  | number (v : Dyadic)
  | infinite (negative : Bool)
  /-- What NaN stands for. -/
  | unknown
  | list (items : List Meaning)
  | object (member? : String → Option Meaning)

def Meaning.isList : Meaning → Bool
  | .list _ => true
  | _ => false

/-- What a double stands for. -/
def Binary64.meaning : Binary64 → Meaning
  | .nan => .unknown
  | .infinity negative => .infinite negative
  | .negativeZero => .number 0
  | .finite v => .number v

mutual

/-- What a value stands for, where booleans stand for what `truth` says. -/
def meaningWith (truth : Bool → Meaning) : Value → Meaning
  | .null => .null
  | .bool b => truth b
  | .int n => .number (Dyadic.ofInt n)
  | .float x => Binary64.meaning x
  | .str s => .text s
  | .list items => .list (itemMeanings truth items)
  | .object ms => .object (memberMeaning? truth ms)

def itemMeanings (truth : Bool → Meaning) : List Value → List Meaning
  | [] => []
  | x :: xs => meaningWith truth x :: itemMeanings truth xs

def memberMeaning? (truth : Bool → Meaning) : List (String × Value) → String → Option Meaning
  | [], _ => none
  | (k, x) :: ms, key =>
    if key == k then some (meaningWith truth x) else memberMeaning? truth ms key

end

/-- What a boolean is compared as. -/
def truthNumber (b : Bool) : Meaning := .number (if b then 1 else 0)

/-- What a value is compared as. -/
def meaning (v : Value) : Meaning := meaningWith truthNumber v

/-- What a value stands for, where booleans are no numbers at any depth. -/
def strictMeaning (v : Value) : Meaning := meaningWith .truth v

section Parts

variable (truth : Bool → Meaning)

theorem memberMeaning?_eq (ms : Members) (key : String) :
    memberMeaning? truth ms key = (Ordered.get? ms key).map (meaningWith truth) := by
  induction ms with
  | nil => rfl
  | cons entry rest ih =>
      obtain ⟨k, x⟩ := entry
      rw [memberMeaning?, ih, Ordered.get?_cons]
      split <;> rfl

end Parts

/-! ## Values whose objects are maps -/

mutual

/-- Every object in the value has each key once. -/
def Keyed : Value → Prop
  | .list items => KeyedItems items
  | .object ms => (Ordered.keys ms).Nodup ∧ KeyedMembers ms
  | _ => True

def KeyedItems : List Value → Prop
  | [] => True
  | x :: xs => Keyed x ∧ KeyedItems xs

def KeyedMembers : List (String × Value) → Prop
  | [] => True
  | (_, x) :: ms => Keyed x ∧ KeyedMembers ms

end

mutual

theorem Proper.keyed : ∀ v : Value, Proper v → Keyed v
  | .list items, h => by
      rw [Proper] at h
      rw [Keyed]
      exact ProperItems.keyed items h
  | .object ms, h => by
      rw [Proper] at h
      rw [Keyed]
      exact ⟨h.1, ProperMembers.keyed ms h.2⟩
  | .null, _ | .bool _, _ | .int _, _ | .float _, _ | .str _, _ => by rw [Keyed] <;> simp

theorem ProperItems.keyed : ∀ items : List Value, ProperItems items → KeyedItems items
  | [], _ => trivial
  | x :: xs, h => by
      rw [ProperItems] at h
      rw [KeyedItems]
      exact ⟨Proper.keyed x h.1, ProperItems.keyed xs h.2⟩

theorem ProperMembers.keyed : ∀ ms : List (String × Value), ProperMembers ms → KeyedMembers ms
  | [], _ => trivial
  | (_, x) :: ms, h => by
      rw [ProperMembers] at h
      rw [KeyedMembers]
      exact ⟨Proper.keyed x h.1, ProperMembers.keyed ms h.2⟩

end

/-! ## Sameness -/

theorem binary64_same_iff {x y : Binary64} (hy : y ≠ .nan) :
    x.same y = true ↔ Binary64.meaning x = Binary64.meaning y := by
  cases y with
  | nan => exact absurd rfl hy
  | infinity b | negativeZero | finite v =>
      cases x <;> simp [Binary64.same, Binary64.value?, Binary64.meaning]

/-- **Objects of the same size whose members agree have the same members under every key.** -/
theorem members_agree_iff {xs ys : Members} (hxs : (Ordered.keys xs).Nodup)
    (hys : (Ordered.keys ys).Nodup) (truth : Bool → Meaning) :
    (xs.length = ys.length ∧
        ∀ e ∈ xs, memberMeaning? truth ys e.1 = some (meaningWith truth e.2)) ↔
      memberMeaning? truth xs = memberMeaning? truth ys := by
  constructor
  · rintro ⟨hlength, hagree⟩
    funext key
    by_cases hkey : key ∈ Ordered.keys xs
    · obtain ⟨⟨k, x⟩, he, rfl⟩ := List.mem_map.mp hkey
      rw [hagree _ he, memberMeaning?_eq, get?_of_mem hxs he, Option.map_some]
    · -- The keys of `xs` are keys of `ys`, and there are as many.
      have hsubset : Ordered.keys xs ⊆ Ordered.keys ys := by
        intro k hk
        obtain ⟨e, he, rfl⟩ := List.mem_map.mp hk
        have hsome := hagree e he
        rw [memberMeaning?_eq, Option.map_eq_some_iff] at hsome
        obtain ⟨y, hy, -⟩ := hsome
        exact has_iff.mp (by rw [Ordered.has, hy, Option.isSome_some])
      have hperm : (Ordered.keys xs).Perm (Ordered.keys ys) := by
        refine (List.subperm_of_subset hxs hsubset).perm_of_length_le ?_
        simp [Ordered.keys, hlength]
      have hother : key ∉ Ordered.keys ys := fun hmem => hkey (hperm.mem_iff.mpr hmem)
      rw [memberMeaning?_eq, memberMeaning?_eq, get?_eq_none_iff.mpr hkey,
        get?_eq_none_iff.mpr hother]
  · intro heq
    have hread : ∀ key, (Ordered.get? xs key).map (meaningWith truth) =
        (Ordered.get? ys key).map (meaningWith truth) := by
      intro key
      rw [← memberMeaning?_eq, ← memberMeaning?_eq, heq]
    have hkeys : ∀ key, key ∈ Ordered.keys xs ↔ key ∈ Ordered.keys ys := by
      intro key
      have hboth := congrArg Option.isSome (hread key)
      rw [Option.isSome_map, Option.isSome_map] at hboth
      rw [← has_iff, ← has_iff, Ordered.has, Ordered.has, hboth]
    have hperm : (Ordered.keys xs).Perm (Ordered.keys ys) :=
      (List.perm_ext_iff_of_nodup hxs hys).mpr hkeys
    refine ⟨by simpa [Ordered.keys] using hperm.length_eq, fun e he => ?_⟩
    rw [memberMeaning?_eq, ← hread, get?_of_mem hxs he, Option.map_some]

mutual

/-- **Values are the same when they stand for the same**, as long as there is no NaN on one side.
-/
theorem same_iff : ∀ a b : Value, Keyed a → Proper b → (a.same b = true ↔ meaning a = meaning b)
  | .list xs, b, ha, hb => by
      rw [Keyed] at ha
      cases b with
      | list ys =>
          rw [Proper] at hb
          rw [Value.same, sameItems_iff xs ys ha hb, meaning, meaning, meaningWith, meaningWith,
            Meaning.list.injEq]
      | null | bool _ | int _ | str _ | object _ =>
          simp [Value.same, meaning, meaningWith, truthNumber]
      | float y => cases y <;> simp [Value.same, meaning, meaningWith, Binary64.meaning]
  | .object xs, b, ha, hb => by
      rw [Keyed] at ha
      cases b with
      | object ys =>
          rw [Proper] at hb
          rw [Value.same, Bool.and_eq_true, beq_iff_eq, sameMembers_iff xs ys ha.2 hb.2,
            members_agree_iff ha.1 hb.1, meaning, meaning, meaningWith, meaningWith,
            Meaning.object.injEq]
      | null | bool _ | int _ | str _ | list _ =>
          simp [Value.same, meaning, meaningWith, truthNumber]
      | float y => cases y <;> simp [Value.same, meaning, meaningWith, Binary64.meaning]
  | .float x, b, _, hb => by
      cases b with
      | float y =>
          rw [Proper] at hb
          simpa [Value.same, Value.sameScalar, meaning, meaningWith] using binary64_same_iff hb
      | null | bool _ | int _ | str _ | list _ | object _ =>
          cases x <;> simp [Value.same, Value.sameScalar, Value.number?, Binary64.value?, meaning,
            meaningWith, Binary64.meaning, truthNumber]
  | .null, b, _, _ | .bool _, b, _, _ | .int _, b, _, _ | .str _, b, _, _ => by
      cases b with
      | float y =>
          cases y <;> simp [Value.same, Value.sameScalar, Value.number?, Binary64.value?, meaning,
            meaningWith, Binary64.meaning, truthNumber]
      | null | bool _ | int _ | str _ | list _ | object _ =>
          simp [Value.same, Value.sameScalar, Value.number?, meaning, meaningWith, truthNumber]

theorem sameItems_iff : ∀ xs ys : List Value, KeyedItems xs → ProperItems ys →
    (Value.sameItems xs ys = true ↔
      itemMeanings truthNumber xs = itemMeanings truthNumber ys)
  | [], ys, _, _ => by cases ys <;> simp [Value.sameItems, itemMeanings]
  | x :: xs, [], _, _ => by simp [Value.sameItems, itemMeanings]
  | x :: xs, y :: ys, hx, hy => by
      rw [KeyedItems] at hx
      rw [ProperItems] at hy
      rw [Value.sameItems, Bool.and_eq_true, same_iff x y hx.1 hy.1,
        sameItems_iff xs ys hx.2 hy.2, itemMeanings, itemMeanings, List.cons.injEq]
      rfl

theorem sameMembers_iff : ∀ xs ys : Members, KeyedMembers xs → ProperMembers ys →
    (Value.sameMembers xs ys = true ↔
      ∀ e ∈ xs, memberMeaning? truthNumber ys e.1 = some (meaningWith truthNumber e.2))
  | [], _, _, _ => by simp [Value.sameMembers]
  | (k, x) :: xs, ys, hx, hy => by
      rw [KeyedMembers] at hx
      rw [Value.sameMembers, Bool.and_eq_true, sameMembers_iff xs ys hx.2 hy,
        List.forall_mem_cons, memberMeaning?_eq]
      refine and_congr_left fun _ => ?_
      cases hread : Ordered.get? ys k with
      | none =>
          rw [show ys.lookup k = none from hread]
          simp
      | some y =>
          rw [show ys.lookup k = some y from hread]
          have hproper : Proper y := hy.mem (mem_of_get? hread)
          dsimp only
          rw [same_iff x y hx.1 hproper, Option.map_some, Option.some.injEq, eq_comm]
          rfl

end

end Formwork.Proofs
