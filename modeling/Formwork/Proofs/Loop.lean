import Mathlib.Data.List.Chain
import Mathlib.Logic.Relation

/-!
# Loops

A loop is said here without a bound on how often it goes round: what a turn does, and where
the loop halts with what. State by state there is one turn at most, or one outcome, so a
loop comes to one outcome at most, whatever function computes it.
-/

namespace Formwork.Proofs

/-- A loop over states, with the outcomes that it halts with. -/
structure Loop (α β : Type) where
  turn : α → α → Prop
  halts : α → β → Prop
  turn_unique : ∀ {a b c : α}, turn a b → turn a c → b = c
  halts_unique : ∀ {a : α} {x y : β}, halts a x → halts a y → x = y
  /-- Where the loop halts, it does not go on. -/
  exclusive : ∀ {a b : α} {x : β}, turn a b → ¬ halts a x

namespace Loop

variable {α β : Type} (loop : Loop α β)

/-- The loop goes round from a state until it halts with an outcome. -/
inductive ComesTo : α → β → Prop where
  | halt {a : α} {x : β} : loop.halts a x → ComesTo a x
  | turn {a b : α} {x : β} : loop.turn a b → ComesTo b x → ComesTo a x

/-- The loop can get from one state to another. -/
def Passes : α → α → Prop := Relation.ReflTransGen loop.turn

variable {loop}

/-- **A loop comes to one outcome at most.** -/
theorem ComesTo.unique {a : α} {x y : β} (hx : loop.ComesTo a x) (hy : loop.ComesTo a y) :
    x = y := by
  induction hx with
  | halt hx =>
      cases hy with
      | halt hy => exact loop.halts_unique hx hy
      | turn hturn _ => exact absurd hx (loop.exclusive hturn)
  | turn hturn _ ih =>
      cases hy with
      | halt hy => exact absurd hy (loop.exclusive hturn)
      | turn hturn' hy =>
          obtain rfl := loop.turn_unique hturn hturn'
          exact ih hy

theorem comesTo_iff {a : α} {x y : β} (hx : loop.ComesTo a x) : loop.ComesTo a y ↔ y = x :=
  ⟨fun hy => hy.unique hx, fun heq => heq ▸ hx⟩

/-- What every turn keeps holds wherever the loop passes. -/
theorem Passes.invariant {P : α → Prop} (hstep : ∀ {a b}, loop.turn a b → P a → P b) {a b : α}
    (h : loop.Passes a b) (ha : P a) : P b := by
  induction h with
  | refl => exact ha
  | tail _ hturn ih => exact hstep hturn ih

/-- A loop goes round no more often than a measure allows that every turn makes smaller. -/
theorem length_le {measure : α → Nat} (hstep : ∀ {a b}, loop.turn a b → measure b < measure a)
    {a : α} {states : List α} (h : (a :: states).IsChain loop.turn) :
    states.length ≤ measure a := by
  induction states generalizing a with
  | nil => exact Nat.zero_le _
  | cons b states ih =>
      obtain ⟨hturn, hrest⟩ := List.isChain_cons_cons.mp h
      have hrest := ih hrest
      have hless := hstep hturn
      rw [List.length_cons]
      omega

end Loop

end Formwork.Proofs
