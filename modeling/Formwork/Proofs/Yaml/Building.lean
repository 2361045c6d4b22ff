import Formwork.Proofs.Yaml.Scanning
import Formwork.Yaml.Document

/-!
# What a tree of nodes is built to

Three things may be wrong with the tokens of a text. They make no tree, or a part of the tree may
not stand where it stands: the text is malformed. Or they do not tell, and the scalar behind them
cannot be read. Or a scalar announces a value that it does not have (`Misstated`).

The data of a tree are begun level by level (`Plan.steps`), and every part of it is begun at
some level. The first part for which there are none is what building fails with.
-/

namespace Formwork.Yaml

/-- A part of a plan, a part of a part, and so on. -/
inductive Plan.Within (p : Plan) : Plan → Prop
  | self : Plan.Within p p
  | part {q r : Plan} (hq : Plan.Within p q) (hr : r ∈ q.parts) : Plan.Within p r

/-- What is begun announces a value that it does not have. -/
def Plan.Misstates (fault : ScalarFault) : Plan → Prop
  | .scalar kind s => kind.build s = .error (.scalar fault)
  | .refused e => e = .scalar fault
  | _ => False

/-- The first part that cannot be begun announces a value that it does not have. -/
def Plan.Misstated (p : Plan) (fault : ScalarFault) : Prop :=
  ∃ before x after, p.steps = before ++ x :: after ∧ (∀ b ∈ before, b.begin = .ok ())
    ∧ x.Misstates fault

end Formwork.Yaml

namespace Formwork.Proofs

open Formwork Formwork.Yaml Formwork.Yaml.Node

/-! ## Building -/

section Plans

variable {p q x : Plan}

theorem one_le_height (p : Plan) : 1 ≤ p.height := by
  cases p <;> simp [Plan.height]

theorem height_le_items {ps : List Plan} (h : p ∈ ps) : p.height ≤ Plan.heightOfItems ps := by
  induction ps with
  | nil => cases h
  | cons first rest ih =>
      rw [Plan.heightOfItems]
      rcases List.mem_cons.mp h with rfl | h
      · exact Nat.le_max_left ..
      · exact Nat.le_trans (ih h) (Nat.le_max_right ..)

theorem heights_le_entries {es : List (Plan × Plan)} {e : Plan × Plan} (h : e ∈ es) :
    e.1.height ≤ Plan.heightOfEntries es ∧ e.2.height ≤ Plan.heightOfEntries es := by
  induction es with
  | nil => cases h
  | cons first rest ih =>
      rw [Plan.heightOfEntries]
      rcases List.mem_cons.mp h with rfl | h
      · omega
      · have := ih h
        omega

/-- The parts of an entry are no higher than its entries; what is refused is never higher. -/
theorem height_le_of_mem_entryParts {es : List (Plan × Plan)} (h : q ∈ es.flatMap Plan.entryParts) :
    q.height ≤ Plan.heightOfEntries es := by
  obtain ⟨e, he, hq⟩ := List.mem_flatMap.mp h
  have hle := heights_le_entries he
  have hone := one_le_height e.2
  have hrefused : (Plan.refused .malformed).height = 1 := by rw [Plan.height]
  unfold Plan.entryParts at hq
  split at hq
  · rcases List.mem_pair.mp hq with rfl | rfl <;> omega
  · rcases List.mem_pair.mp hq with rfl | rfl <;> omega

theorem height_lt_of_mem_parts (h : q ∈ p.parts) : q.height < p.height := by
  cases p with
  | scalar | refused => cases h
  | broken =>
      obtain rfl := List.mem_singleton.mp h
      simp [Plan.height]
  | sequence items =>
      rw [Plan.height]
      exact Nat.lt_succ_of_le (height_le_items h)
  | pairs entries =>
      obtain ⟨e, he, hq⟩ := List.mem_flatMap.mp h
      have hle := heights_le_entries he
      rw [Plan.height]
      rcases List.mem_pair.mp hq with rfl | rfl <;> omega
  | mapping entries | set entries =>
      rw [Plan.height]
      exact Nat.lt_succ_of_le (height_le_of_mem_entryParts h)

/-- Below its height a plan has no levels. -/
theorem level_eq_nil {depth : Nat} (h : p.height ≤ depth) : p.level depth = [] := by
  induction depth generalizing p with
  | zero => exact absurd (one_le_height p) (by omega)
  | succ depth ih =>
      rw [Plan.level, List.flatMap_eq_nil_iff]
      intro q hq
      have := height_lt_of_mem_parts hq
      exact ih (by omega)

theorem mem_steps : x ∈ p.steps ↔ ∃ depth, x ∈ p.level depth := by
  rw [Plan.steps, List.mem_flatMap]
  refine ⟨fun ⟨depth, _, hx⟩ => ⟨depth, hx⟩, fun ⟨depth, hx⟩ => ⟨depth, ?_, hx⟩⟩
  rw [List.mem_range]
  by_contra hdeep
  rw [level_eq_nil (Nat.not_lt.mp hdeep)] at hx
  cases hx

/-- The parts of what stands on a level stand on the next. -/
theorem mem_level_succ {depth : Nat} (hq : q ∈ p.level depth) (hx : x ∈ q.parts) :
    x ∈ p.level (depth + 1) := by
  induction depth generalizing p with
  | zero =>
      obtain rfl := List.mem_singleton.mp hq
      exact List.mem_flatMap.mpr ⟨x, hx, List.mem_singleton_self x⟩
  | succ depth ih =>
      obtain ⟨r, hr, hq⟩ := List.mem_flatMap.mp hq
      exact List.mem_flatMap.mpr ⟨r, hr, ih hq⟩

theorem within_trans (hq : p.Within q) (hx : q.Within x) : p.Within x := by
  induction hx with
  | self => exact hq
  | part _ hr ih => exact .part ih hr

theorem within_of_mem_level {depth : Nat} (h : x ∈ p.level depth) : p.Within x := by
  induction depth generalizing p with
  | zero =>
      obtain rfl := List.mem_singleton.mp h
      exact .self
  | succ depth ih =>
      obtain ⟨q, hq, hx⟩ := List.mem_flatMap.mp h
      exact within_trans (.part .self hq) (ih hx)

/-- **Every part of a plan is begun at some step, and nothing else is.** -/
theorem mem_steps_iff_within : x ∈ p.steps ↔ p.Within x := by
  rw [mem_steps]
  refine ⟨fun ⟨_, hx⟩ => within_of_mem_level hx, fun hx => ?_⟩
  induction hx with
  | self => exact ⟨0, List.mem_singleton_self p⟩
  | part _ hr ih =>
      obtain ⟨depth, hq⟩ := ih
      exact ⟨depth + 1, mem_level_succ hq hr⟩

theorem begin_eq_scalar_iff {fault : ScalarFault} :
    p.begin = .error (.scalar fault) ↔ p.Misstates fault := by
  cases p with
  | scalar kind s => exact map_eq_error
  | refused e => simp [Plan.begin, Plan.Misstates]
  | sequence | pairs | mapping | set | broken => simp [Plan.begin, Plan.Misstates]

/-- **A plan that is not malformed is built unless a part of it cannot be begun**; the first such
part is a misstated scalar. -/
theorem build_eq_scalar_iff {fault : ScalarFault} :
    p.build = .error (.scalar fault) ↔ p.Misstated fault := by
  rw [Plan.build, bind_eq_error]
  simp only [reduceCtorEq, and_false, exists_false, or_false]
  rw [forM_eq_error_iff]
  simp only [begin_eq_scalar_iff, Plan.Misstated]

end Plans

/-! ## Texts -/

/-- What loading a text comes upon before it is known to be malformed, if it is: an escape
with the code of no character, or a scalar of its tree that is misstated. -/
inductive Misstates (s : String) : ScalarFault → Prop
  /-- A reader of the tokens in front of the escape has to know what is behind them. -/
  | escape {tokens : List Token} {code : Nat}
      (htokens : tokenize s = .ok ⟨tokens, some (.characterCode code)⟩)
      (htree : ofTokens tokens = .error .exhausted)
      (hescape : HoldsWildEscape code s.toList) : Misstates s (.characterCode code)
  | node {run : TokenRun} {n : Node} {fault : ScalarFault}
      (htokens : tokenize s = .ok run) (htree : ofTokens run.tokens = .ok (some n))
      (hn : n.plan.Misstated fault) : Misstates s fault

theorem error_eq_scalar_iff {run : TokenRun} {e : NodeFault} {fault : ScalarFault} :
    run.error e = .scalar fault ↔ e = .exhausted ∧ run.fault? = some fault := by
  cases e with
  | malformed => simp [TokenRun.error]
  | exhausted => cases h : run.fault? <;> simp [TokenRun.error, h]

/-- **A text is read or malformed, unless it misstates a scalar.** -/
theorem read_eq_scalar_iff {s : String} {fault : ScalarFault} :
    Yaml.read s = .error (.scalar fault) ↔ Misstates s fault := by
  unfold Yaml.read
  constructor
  · intro h
    rcases bind_eq_error.mp h with htokens | ⟨run, htokens, h⟩
    · cases (tokenize_stops s).fails _ htokens
    · rcases bind_eq_error.mp h with htree | ⟨found, htree, h⟩
      · obtain ⟨e, htree, he⟩ := mapError_eq_error.mp htree
        obtain ⟨rfl, hfault⟩ := error_eq_scalar_iff.mp he
        obtain ⟨tokens, fault?⟩ := run
        obtain rfl : fault? = some fault := hfault
        rcases (tokenize_stops s).stays _ htokens fault rfl with hmalformed | ⟨code, hcode, hescape⟩
        · cases hmalformed
        · cases hcode
          exact .escape htokens htree hescape
      · cases found with
        | none => cases h
        | some n => exact .node htokens (mapError_eq_ok.mp htree) (build_eq_scalar_iff.mp h)
  · intro h
    cases h with
    | escape htokens htree =>
        rw [htokens, ok_bind]
        dsimp only
        rw [htree]
        rfl
    | node htokens htree hn =>
        rw [htokens, ok_bind, htree]
        exact build_eq_scalar_iff.mpr hn

end Formwork.Proofs
