import Formwork.Proofs.Sample
import Formwork.Proofs.Values.Meaning

/-!
# Contexts that are unchanged relative to each other

What change detection compares of an attribute is its `Face`: what it stands for and whether it
is a boolean, and of a list the same of every item, but not further down. Contexts are
unchanged relative to each other when they have the same picture, which is the face under
every key (`hasChanged_eq_false_iff_picture`). So to be unchanged is an equivalence, and a
request that is not made for a context that is unchanged would have been made for an
equivalent one.
-/

namespace Formwork.Proofs

open Formwork CaseContext

/-! ## Faces -/

/-- What is compared of a value by itself. -/
structure Mark where
  isBool : Bool
  meaning : Meaning

/-- What is compared of an attribute. -/
inductive Face where
  | single (mark : Mark)
  | list (items : List Mark)

def Face.isList : Face → Bool
  | .single _ => false
  | .list _ => true

def mark (v : Value) : Mark := ⟨v.isBool, meaning v⟩

/-- What an attribute with a value shows. -/
def face : Value → Face
  | .list items => .list (items.map mark)
  | v => .single (mark v)

/-- What a context shows under a key. -/
def picture (context : Members) (key : String) : Option Face :=
  (Ordered.get? context key).map face

/-- Every object in the values of a context has each key once. -/
def KeyedContext (context : Members) : Prop := ∀ e ∈ context, Keyed e.2

theorem ProperContext.keyed {context : Members} (h : ProperContext context) :
    KeyedContext context :=
  fun e he => Proper.keyed e.2 (h e he)

theorem KeyedContext.get? {context : Members} (h : KeyedContext context) (key : String) :
    ∀ v ∈ Ordered.get? context key, Keyed v :=
  fun v hv => h (key, v) (mem_of_get? hv)

/-! ## Attributes -/

section Attributes

variable {a b : Value}

/-- A boolean differs from whatever is none. -/
theorem differs_of_isBool_ne (h : a.isBool ≠ b.isBool) : differs a b = true := by
  cases a <;> cases b <;> first | rfl | exact absurd rfl h

theorem truthNumber_inj {x y : Bool} : truthNumber x = truthNumber y ↔ x = y := by
  cases x <;> cases y <;> simp [truthNumber] <;> decide

theorem differs_eq_false_iff (ha : Keyed a) (hb : Proper b) :
    differs a b = false ↔ mark a = mark b := by
  rw [mark, mark, Mark.mk.injEq]
  by_cases hkind : a.isBool = b.isBool
  · rw [and_iff_right hkind, ← same_iff a b ha hb]
    cases hbool : b.isBool with
    | false => simp [differs, hkind, hbool]
    | true =>
        rw [hbool] at hkind
        cases a <;> cases hkind
        cases b <;> cases hbool
        rw [same_iff _ _ ha hb]
        simp [differs, Value.isBool, meaning, meaningWith, truthNumber_inj]
  · rw [differs_of_isBool_ne hkind]
    exact iff_of_false (by decide) fun h => hkind h.1

theorem isList_meaning (v : Value) : (meaning v).isList = v.items?.isSome := by
  cases v with
  | float x => cases x <;> rfl
  | null | bool _ | int _ | str _ | list _ | object _ => rfl

theorem isList_face (v : Value) : (face v).isList = v.items?.isSome := by
  cases v <;> rfl

/-- Of two lists the items are compared. -/
theorem face_eq_iff (h : a.items? = none ∨ b.items? = none) :
    face a = face b ↔ mark a = mark b := by
  by_cases hlists : a.items?.isSome = b.items?.isSome
  · have hneither : a.items? = none ∧ b.items? = none := by
      rcases h with h | h <;> rw [h] at hlists ⊢ <;> simpa using hlists
    have hsingle : ∀ v : Value, v.items? = none → face v = .single (mark v) := by
      intro v hv
      cases v <;> first | rfl | cases hv
    rw [hsingle a hneither.1, hsingle b hneither.2, Face.single.injEq]
  · refine iff_of_false (fun heq => hlists ?_) fun heq => hlists ?_
    · rw [← isList_face, ← isList_face, heq]
    · rw [← isList_meaning, ← isList_meaning]
      exact congrArg (fun m => m.meaning.isList) heq

theorem attributeDiffers_some (h : a.items? = none ∨ b.items? = none) :
    attributeDiffers (some a) (some b) = differs a b := by
  cases a <;> cases b <;> first | rfl | simp [Value.items?] at h

end Attributes

theorem itemsDiffer_eq_false_iff {as bs : List Value} (has : KeyedItems as)
    (hbs : ProperItems bs) : itemsDiffer as bs = false ↔ as.map mark = bs.map mark := by
  induction as generalizing bs with
  | nil => cases bs <;> simp [itemsDiffer]
  | cons a as ih =>
      cases bs with
      | nil => simp [itemsDiffer]
      | cons b bs =>
          rw [KeyedItems] at has
          rw [ProperItems] at hbs
          rw [itemsDiffer, Bool.or_eq_false_iff, differs_eq_false_iff has.1 hbs.1,
            ih has.2 hbs.2, List.map_cons, List.map_cons, List.cons.injEq]

/-- Lists differ when a boolean stands on one side where there is none on the other. -/
theorem itemsDiffer_of_isBool_ne {as bs : List Value} {i : Nat} {a b : Value}
    (ha : as[i]? = some a) (hb : bs[i]? = some b) (h : a.isBool ≠ b.isBool) :
    itemsDiffer as bs = true := by
  induction as generalizing bs i with
  | nil => cases ha
  | cons x xs ih =>
      cases bs with
      | nil => cases hb
      | cons y ys =>
          rw [itemsDiffer, Bool.or_eq_true]
          cases i with
          | zero =>
              cases ha
              cases hb
              exact .inl (differs_of_isBool_ne h)
          | succ i => exact .inr (ih ha hb)

/-- **Attributes are unchanged when they show the same.** -/
theorem attributeDiffers_eq_false_iff {a? b? : Option Value} (ha : ∀ v ∈ a?, Keyed v)
    (hb : ∀ v ∈ b?, Proper v) :
    attributeDiffers a? b? = false ↔ a?.map face = b?.map face := by
  cases a? with
  | none => cases b? <;> simp [attributeDiffers]
  | some a =>
      cases b? with
      | none => cases a <;> simp [attributeDiffers]
      | some b =>
          have ha := ha a rfl
          have hb := hb b rfl
          rw [Option.map_some, Option.map_some, Option.some.injEq]
          cases hlist : a.items? with
          | none =>
              rw [attributeDiffers_some (.inl hlist), differs_eq_false_iff ha hb,
                face_eq_iff (.inl hlist)]
          | some as =>
              cases hlist' : b.items? with
              | none =>
                  rw [attributeDiffers_some (.inr hlist'), differs_eq_false_iff ha hb,
                    face_eq_iff (.inr hlist')]
              | some bs =>
                  cases a <;> cases hlist
                  cases b <;> cases hlist'
                  rw [Keyed] at ha
                  rw [Proper] at hb
                  rw [attributeDiffers, itemsDiffer_eq_false_iff ha hb, face, face, Face.list.injEq]

/-! ## Contexts -/

/-- **Contexts are unchanged relative to each other when they have the same picture.** -/
theorem hasChanged_eq_false_iff_picture {old new : Members} (hold : KeyedContext old)
    (hnew : ProperContext new) : hasChanged old new = false ↔ picture old = picture new := by
  rw [hasChanged_eq_false_iff, funext_iff]
  exact forall_congr' fun key => attributeDiffers_eq_false_iff (hold.get? key) (hnew.get? key)

/-- A difference under one key is a change. -/
theorem hasChanged_of_differs {old new : Members} (key : String)
    (h : attributeDiffers (Ordered.get? old key) (Ordered.get? new key) = true) :
    hasChanged old new = true := by
  rw [← Bool.not_eq_false, hasChanged_eq_false_iff]
  intro hsame
  rw [hsame key] at h
  cases h

theorem hasChanged_of_missing {old new : Members} {key : String}
    (h : Ordered.has old key ≠ Ordered.has new key) : hasChanged old new = true := by
  refine hasChanged_of_differs key ?_
  rw [Ordered.has, Ordered.has] at h
  cases hold : Ordered.get? old key with
  | none =>
      cases hnew : Ordered.get? new key with
      | none => rw [hold, hnew] at h; exact absurd rfl h
      | some y => rfl
  | some x =>
      cases hnew : Ordered.get? new key with
      | none => cases x <;> rfl
      | some y => rw [hold, hnew] at h; exact absurd rfl h

/-- The two values, or at some position their items, are a boolean and something else. -/
inductive Mixed : Value → Value → Prop
  | here {x y : Value} (h : x.isBool ≠ y.isBool) : Mixed x y
  | item {xs ys : List Value} {i : Nat} {x y : Value} (hx : xs[i]? = some x)
      (hy : ys[i]? = some y) (h : x.isBool ≠ y.isBool) : Mixed (.list xs) (.list ys)

theorem Mixed.differs {x y : Value} (h : Mixed x y) :
    attributeDiffers (some x) (some y) = true := by
  cases h with
  | here h =>
      have hlist : x.items? = none ∨ y.items? = none := by
        cases x <;> cases y <;> simp_all [Value.items?, Value.isBool]
      rw [attributeDiffers_some hlist, differs_of_isBool_ne h]
  | item hx hy h => exact itemsDiffer_of_isBool_ne hx hy h

/-- **Updates keep contexts unchanged relative to each other.** They write the same values, so under
every key both contexts hold one value, or values that do not differ. -/
theorem update_congr {a b : Members} (h : hasChanged a b = false) (values : Members)
    (discriminants : List Field) :
    (∃ fault, update a values discriminants = .error fault
        ∧ update b values discriminants = .error fault)
      ∨ ∃ a' b', update a values discriminants = .ok a' ∧ update b values discriminants = .ok b'
        ∧ (∀ key, Ordered.get? a' key = Ordered.get? b' key
            ∨ attributeDiffers (Ordered.get? a' key) (Ordered.get? b' key) = false)
        ∧ (Proper (.object values) → hasChanged a' b' = false) := by
  rw [update, update]
  cases hfound : found values discriminants with
  | error fault => exact .inl ⟨fault, rfl, rfl⟩
  | ok written =>
      refine .inr ⟨_, _, rfl, rfl, fun key => ?_, fun hvalues =>
        hasChanged_insertAll h (found_proper hvalues hfound)⟩
      by_cases hkey : key ∈ Ordered.keys written
      · obtain ⟨v, hv⟩ := get?_written hkey
        exact .inl ((hv a).trans (hv b).symm)
      · rw [get?_unwritten hkey, get?_unwritten hkey]
        exact .inr (hasChanged_eq_false_iff.mp h key)

/--
**Change detection is the complement of an equivalence.**

Among contexts without NaN, to be unchanged is reflexive, symmetric and transitive. A missing
attribute differs from every value, and a boolean from everything else, by itself or as an item of a
list. Whatever is edited afterwards, contexts that are unchanged relative to each other remain so.
-/
theorem unchanged_equivalence :
    Equivalence (fun a b : { context : Members // ProperContext context } =>
        hasChanged a.1 b.1 = false)
      ∧ (∀ (a b : Members) (key : String), Ordered.has a key ≠ Ordered.has b key →
        hasChanged a b = true)
      ∧ (∀ (a b : Members) (key : String) (x y : Value), Ordered.get? a key = some x →
        Ordered.get? b key = some y → Mixed x y → hasChanged a b = true)
      ∧ (∀ a b : Members, hasChanged a b = false → ∀ (values : Members)
          (discriminants : List Field),
        (∃ fault, update a values discriminants = .error fault
            ∧ update b values discriminants = .error fault)
          ∨ ∃ a' b', update a values discriminants = .ok a'
            ∧ update b values discriminants = .ok b'
            ∧ (∀ key, Ordered.get? a' key = Ordered.get? b' key
                ∨ attributeDiffers (Ordered.get? a' key) (Ordered.get? b' key) = false)
            ∧ (Proper (.object values) → hasChanged a' b' = false)) := by
  refine ⟨?_, fun a b key => hasChanged_of_missing, ?_, fun a b => update_congr⟩
  · have hkernel : ∀ a b : { context : Members // ProperContext context },
        hasChanged a.1 b.1 = false ↔ picture a.1 = picture b.1 :=
      fun a b => hasChanged_eq_false_iff_picture a.2.keyed b.2
    constructor
    · exact fun a => (hkernel a a).mpr rfl
    · exact fun {a b} hab => (hkernel b a).mpr ((hkernel a b).mp hab).symm
    · exact fun {a b c} hab hbc =>
        (hkernel a c).mpr (((hkernel a b).mp hab).trans ((hkernel b c).mp hbc))
  · intro a b key x y hx hy hmixed
    refine hasChanged_of_differs key ?_
    rw [hx, hy]
    exact hmixed.differs

/-- A case about which something is noted. -/
def noted : Members := [("tags", .list [.int 1, .bool true]), ("score", .int 1)]

/-- The same, in other words. -/
def renoted : Members :=
  [("score", .float (.finite 1)), ("tags", .list [.float (.finite 1), .bool true])]

/-- The numbers are the same as doubles, but not as booleans. -/
theorem unchanged_equivalence_noted :
    ProperContext noted ∧ ProperContext renoted
      ∧ hasChanged noted renoted = false ∧ hasChanged renoted noted = false
      ∧ hasChanged noted [("score", .int 1)] = true
      ∧ hasChanged noted [("tags", .list [.bool true, .bool true]), ("score", .int 1)] = true
      ∧ ∃ a b, update noted [("score", .str "high")] [textField "score"] = .ok a
        ∧ update renoted [("score", .str "high")] [textField "score"] = .ok b
        ∧ hasChanged a b = false := by
  have hnoted : ProperContext noted := by
    intro e he
    rcases List.mem_pair.mp he with rfl | rfl <;> simp [Proper, ProperItems]
  have hrenoted : ProperContext renoted := by
    intro e he
    rcases List.mem_pair.mp he with rfl | rfl <;> simp [Proper, ProperItems]
  have hvalues : Proper (.object [("score", .str "high")]) := by
    simp [Proper, ProperMembers, Ordered.keys]
  have hsame : hasChanged noted renoted = false := by decide
  obtain ⟨hequiv, hmissing, hmixed, hcongr⟩ := unchanged_equivalence
  refine ⟨hnoted, hrenoted, hsame, hequiv.symm (x := ⟨noted, hnoted⟩) (y := ⟨renoted, hrenoted⟩)
    hsame, hmissing _ _ "tags" (by decide), ?_, ?_⟩
  · exact hmixed _ _ "tags" _ _ rfl rfl (.item (i := 0) rfl rfl (by decide))
  · rcases hcongr noted renoted hsame [("score", .str "high")] [textField "score"] with h | h
    · obtain ⟨fault, hfault, -⟩ := h
      cases hfault
    · obtain ⟨a, b, ha, hb, -, hstill⟩ := h
      exact ⟨a, b, ha, hb, hstill hvalues⟩

end Formwork.Proofs
