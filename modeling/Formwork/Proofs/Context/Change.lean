import Formwork.Context.Case
import Formwork.Proofs.Answer
import Formwork.Proofs.Ordered

/-!
# When a case context has changed

Two contexts are compared key by key (`hasChanged_eq_false_iff`). A value is the same as
itself unless NaN is somewhere in it (`same_self`), so an edit can only change the
attributes that it writes: looking at those is looking at the whole context
(`differsAt_written`).
-/

namespace Formwork.Proofs

open Formwork CaseContext

/-! ## Values without NaN -/

mutual

/-- There is no NaN in the value, and its objects have each key once. -/
def Proper : Value → Prop
  | .float x => x ≠ .nan
  | .list items => ProperItems items
  | .object ms => (Ordered.keys ms).Nodup ∧ ProperMembers ms
  | _ => True

def ProperItems : List Value → Prop
  | [] => True
  | x :: xs => Proper x ∧ ProperItems xs

def ProperMembers : List (String × Value) → Prop
  | [] => True
  | (_, x) :: ms => Proper x ∧ ProperMembers ms

end

theorem ProperItems.mem {items : List Value} (h : ProperItems items) {v : Value}
    (hv : v ∈ items) : Proper v := by
  induction items with
  | nil => exact absurd hv List.not_mem_nil
  | cons x xs ih =>
      rw [ProperItems] at h
      rcases List.mem_cons.mp hv with rfl | hv
      · exact h.1
      · exact ih h.2 hv

theorem ProperMembers.mem {ms : Members} (h : ProperMembers ms) {entry : String × Value}
    (hentry : entry ∈ ms) : Proper entry.2 := by
  induction ms with
  | nil => exact absurd hentry List.not_mem_nil
  | cons first rest ih =>
      obtain ⟨k, x⟩ := first
      rw [ProperMembers] at h
      rcases List.mem_cons.mp hentry with rfl | hentry
      · exact h.1
      · exact ih h.2 hentry

theorem float_same_self {x : Binary64} (h : x ≠ .nan) : x.same x = true := by
  cases x with
  | nan => exact absurd rfl h
  | infinity a => simp [Binary64.same]
  | negativeZero => simp [Binary64.same, Binary64.value?]
  | finite v => simp [Binary64.same, Binary64.value?]

mutual

/-- **A value without NaN is the same as itself.** -/
theorem same_self : ∀ v : Value, Proper v → v.same v = true
  | .null, _ => rfl
  | .bool b, _ => by simp [Value.same, Value.sameScalar, Value.number?]
  | .int n, _ => by simp [Value.same, Value.sameScalar, Value.number?]
  | .float x, h => by
      rw [Proper] at h
      simpa [Value.same, Value.sameScalar] using float_same_self h
  | .str s, _ => by simp [Value.same, Value.sameScalar]
  | .list items, h => by
      rw [Proper] at h
      rw [Value.same]
      exact sameItems_self items h
  | .object ms, h => by
      rw [Proper] at h
      rw [Value.same, beq_self_eq_true, Bool.true_and]
      refine sameMembers_self ms h.2 fun e he => ?_
      exact get?_of_mem h.1 he

theorem sameItems_self : ∀ items : List Value, ProperItems items →
    Value.sameItems items items = true
  | [], _ => rfl
  | x :: xs, h => by
      rw [ProperItems] at h
      rw [Value.sameItems, same_self x h.1, sameItems_self xs h.2]
      rfl

/-- Each member is found among those on the right. -/
theorem sameMembers_self : ∀ (ms : Members), ProperMembers ms → ∀ {others : Members},
    (∀ e ∈ ms, others.lookup e.1 = some e.2) → Value.sameMembers ms others = true
  | [], _, _, _ => rfl
  | (k, x) :: ms, h, others, hothers => by
      rw [ProperMembers] at h
      have hfound := hothers (k, x) (List.mem_cons_self ..)
      rw [Value.sameMembers, hfound,
        sameMembers_self ms h.2 fun e he => hothers e (List.mem_cons_of_mem _ he)]
      simp [same_self x h.1]

end

/-! ## Attributes -/

/-- All values of a context are free of NaN. -/
def ProperContext (context : Members) : Prop := ∀ e ∈ context, Proper e.2

theorem differs_self {v : Value} (h : Proper v) : differs v v = false := by
  cases v with
  | bool b => simp [differs, Value.isBool]
  | null | int _ | float _ | str _ | list _ | object _ =>
      simp [differs, Value.isBool, same_self _ h]

theorem itemsDiffer_self {items : List Value} (h : ∀ v ∈ items, Proper v) :
    itemsDiffer items items = false := by
  induction items with
  | nil => rfl
  | cons x xs ih =>
      rw [itemsDiffer, differs_self (h x (List.mem_cons_self ..)),
        ih fun v hv => h v (List.mem_cons_of_mem _ hv)]
      rfl

/-- **An attribute without NaN does not differ from itself.** -/
theorem attributeDiffers_self {v? : Option Value} (h : ∀ v ∈ v?, Proper v) :
    attributeDiffers v? v? = false := by
  cases v? with
  | none => rfl
  | some v =>
      have hv := h v rfl
      cases v with
      | list items =>
          rw [Proper] at hv
          exact itemsDiffer_self fun v hv' => hv.mem hv'
      | null | bool _ | int _ | float _ | str _ | object _ => exact differs_self hv

theorem ProperContext.get? {context : Members} (h : ProperContext context) (key : String) :
    ∀ v ∈ Ordered.get? context key, Proper v :=
  fun v hv => h (key, v) (mem_of_get? hv)

/-! ## Contexts -/

/-- **Contexts differ when they differ under some key**, whether one of them has it or not. -/
theorem hasChanged_eq_false_iff {old new : Members} :
    hasChanged old new = false ↔
      ∀ key, attributeDiffers (Ordered.get? old key) (Ordered.get? new key) = false := by
  unfold hasChanged differsAt
  rw [List.any_eq_false]
  constructor
  · intro h key
    by_cases hkey : key ∈ Ordered.keys old ++ Ordered.keys new
    · simpa using h key hkey
    · obtain ⟨hold, hnew⟩ := not_or.mp (mt List.mem_append.mpr hkey)
      rw [get?_eq_none_iff.mpr hold, get?_eq_none_iff.mpr hnew]
      rfl
  · exact fun h key _ => by simp [h key]

theorem hasChanged_self {context : Members} (h : ProperContext context) :
    hasChanged context context = false :=
  hasChanged_eq_false_iff.mpr fun key => attributeDiffers_self (h.get? key)

section Written

variable {context written : Members} {key : String}

theorem get?_written (h : key ∈ Ordered.keys written) :
    ∃ v, ∀ context : Members, Ordered.get? (Ordered.insertAll context written) key = some v := by
  cases hread : Ordered.get? (Ordered.ofList written) key with
  | none => exact absurd h (get?_ofList_eq_none_iff.mp hread)
  | some v => exact ⟨v, fun context => by rw [get?_insertAll, hread, Option.some_or]⟩

theorem get?_unwritten (h : key ∉ Ordered.keys written) (context : Members) :
    Ordered.get? (Ordered.insertAll context written) key = Ordered.get? context key := by
  rw [get?_insertAll, get?_ofList_eq_none_iff.mpr h, Option.none_or]

theorem ProperContext.insertAll (hc : ProperContext context) (hw : ProperContext written) :
    ProperContext (Ordered.insertAll context written) := by
  induction written generalizing context with
  | nil => exact hc
  | cons entry rest ih =>
      have hfirst : ProperContext (Ordered.insert context entry.1 entry.2) := by
        intro e he
        rcases mem_insert_cases he with he | rfl
        · exact hc e he
        · exact hw _ (List.mem_cons_self ..)
      exact ih hfirst fun e he => hw e (List.mem_cons_of_mem _ he)

/-- **Looking at what was written is looking at the whole context.** -/
theorem differsAt_written (h : ProperContext context) :
    differsAt (Ordered.keys written) context (Ordered.insertAll context written) =
      hasChanged context (Ordered.insertAll context written) := by
  rw [Bool.eq_iff_iff, ← Decidable.not_iff_not, Bool.not_eq_true, Bool.not_eq_true,
    hasChanged_eq_false_iff, differsAt, List.any_eq_false]
  constructor
  · intro hsame key
    by_cases hkey : key ∈ Ordered.keys written
    · simpa using hsame key hkey
    · rw [get?_unwritten hkey]
      exact attributeDiffers_self (h.get? key)
  · exact fun hsame key _ => by simp [hsame key]

/-- Contexts that do not differ do not differ after the same writes. -/
theorem hasChanged_insertAll {old new : Members} (h : hasChanged old new = false)
    (hw : ProperContext written) :
    hasChanged (Ordered.insertAll old written) (Ordered.insertAll new written) = false := by
  rw [hasChanged_eq_false_iff] at h ⊢
  intro key
  by_cases hkey : key ∈ Ordered.keys written
  · obtain ⟨v, hv⟩ := get?_written hkey
    have hproper : ∀ w ∈ some v, Proper w := by
      rw [← hv []]
      exact (ProperContext.insertAll (fun _ he => absurd he List.not_mem_nil) hw).get? key
    rw [hv, hv]
    exact attributeDiffers_self hproper
  · rw [get?_unwritten hkey, get?_unwritten hkey]
    exact h key

/-- Writes that change nothing in one context make no difference to another like it. -/
theorem hasChanged_of_idle {old new : Members} (h : hasChanged old new = false)
    (hidle : differsAt (Ordered.keys written) old (Ordered.insertAll old written) = false) :
    hasChanged old (Ordered.insertAll new written) = false := by
  rw [differsAt, List.any_eq_false] at hidle
  rw [hasChanged_eq_false_iff] at h ⊢
  intro key
  by_cases hkey : key ∈ Ordered.keys written
  · obtain ⟨v, hv⟩ := get?_written hkey
    have hsame := hidle key hkey
    rw [hv] at hsame ⊢
    simpa using hsame
  · rw [get?_unwritten hkey]
    exact h key

end Written

/-! ## Updates -/

theorem step_proper {v w : Value} {part : String} (hv : Proper v)
    (h : v.step part = .ok (some w)) : Proper w := by
  cases v with
  | object ms =>
      rw [Proper] at hv
      exact hv.2.mem (mem_of_get? (Except.ok.inj h))
  | list items =>
      rw [Proper] at hv
      obtain ⟨position, -, hitem⟩ := map_eq_ok.mp h
      obtain ⟨i, -, hi⟩ := Option.bind_eq_some_iff.mp hitem
      exact hv.mem (List.mem_of_getElem? hi)
  | null | bool _ | int _ | float _ | str _ => cases h

theorem walk_proper {parts : List String} {v w : Value} (hv : Proper v)
    (h : v.walk parts = .ok (some w)) : Proper w := by
  induction parts generalizing v with
  | nil => cases h; exact hv
  | cons part rest ih =>
      obtain ⟨next, hstep, hrest⟩ := bind_eq_ok.mp h
      cases next with
      | none => cases hrest
      | some x => exact ih (step_proper hv hstep) hrest

/-- What is found among values without NaN has none. -/
theorem found_proper {values written : Members} {discriminants : List Field}
    (hvalues : Proper (.object values)) (h : found values discriminants = .ok written) :
    ProperContext written := by
  obtain ⟨entries, hentries, heq⟩ := bind_eq_ok.mp h
  cases heq
  intro e he
  obtain ⟨⟨id, v?⟩, hmem, hsome⟩ := List.mem_filterMap.mp he
  obtain ⟨v, hv, rfl⟩ := Option.map_eq_some_iff.mp hsome
  obtain ⟨d, -, hread⟩ := mem_mapM hentries hmem
  obtain ⟨found, hfound, heq⟩ := bind_eq_ok.mp hread
  cases heq
  obtain ⟨rfl, -⟩ := Option.filter_eq_some_iff.mp hv
  unfold fieldValue? at hfound
  split at hfound
  · rename_i hdirect
    cases hfound
    rw [Proper] at hvalues
    exact hvalues.2.mem (mem_of_get? hdirect)
  · exact walk_proper hvalues hfound

end Formwork.Proofs
