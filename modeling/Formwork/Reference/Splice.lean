import Formwork.Reference.Collection

/-!
# Splicing sub-forms

A block that stands for a sub-form is replaced, in its place, by the blocks of that sub-form, and so
on for the blocks among those. Splicing works through a stack of tasks: to enter a block, and to
leave the sub-form whose blocks have all been entered. The sub-forms in progress are those that have
been entered and not left; one that is met again closes a cycle.
-/

namespace Formwork

/-- A task of splicing. -/
inductive SpliceTask where
  | enter (block : Block) (suffix : String)
  | leave

namespace Splice

/-- The tasks of entering blocks under a suffix. -/
def enterAll (blocks : List Block) (suffix : String) : List SpliceTask :=
  blocks.map fun b => .enter b suffix

/-- The number of all blocks of a catalog. -/
def breadth (catalog : Catalog) : Nat :=
  catalog.foldr (fun (_, s) n => s.blocks.length + n) 0

/-- What is left to do at most, when sub-forms may still be nested `room` deep. -/
def cost (breadth : Nat) : Nat → List SpliceTask → Nat
  | _, [] => 0
  | room, .enter .. :: rest => Nat.pow (breadth + 2) room + cost breadth room rest
  | room, .leave :: rest => 1 + cost breadth (room + 1) rest

theorem cost_mono (breadth : Nat) (tasks : List SpliceTask) {r r' : Nat} (h : r ≤ r') :
    cost breadth r tasks ≤ cost breadth r' tasks := by
  induction tasks generalizing r r' with
  | nil => simp [cost]
  | cons t rest ih =>
    cases t with
    | enter b s =>
      exact Nat.add_le_add (Nat.pow_le_pow_right (by omega) h) (ih h)
    | leave => exact Nat.add_le_add_left (ih (by omega)) 1

theorem cost_enterAll (breadth room : Nat) (blocks : List Block) (suffix : String)
    (rest : List SpliceTask) :
    cost breadth room (enterAll blocks suffix ++ rest) =
      blocks.length * Nat.pow (breadth + 2) room + cost breadth room rest := by
  induction blocks with
  | nil => simp [enterAll]
  | cons b bs ih =>
    simp only [enterAll, List.map_cons, List.cons_append, cost, List.length_cons] at ih ⊢
    rw [ih, Nat.succ_mul]
    omega

/-- A sub-form has no more blocks than its whole catalog. -/
theorem length_le_breadth {catalog : Catalog} {id : String} {s : SubForm}
    (h : Ordered.get? catalog id = some s) : s.blocks.length ≤ breadth catalog := by
  induction catalog with
  | nil => simp at h
  | cons entry rest ih =>
    obtain ⟨k, f⟩ := entry
    rw [Ordered.get?_cons] at h
    simp only [breadth, List.foldr_cons] at ih ⊢
    split at h
    · cases h; omega
    · have := ih h; omega

/-- How deep sub-forms may still be nested. -/
def room (limit : Int) (path : List String) : Nat := (limit - path.length).toNat

/-- Works through the tasks, with the sub-forms in progress from the innermost out. -/
def run (catalog : Catalog) (limit : Int) (path : List String) (tasks : List SpliceTask) :
    Except ReferenceError (List Block) :=
  match tasks with
  | [] => .ok []
  | .leave :: rest => run catalog limit path.tail rest
  | .enter b suffix :: rest =>
    match b.expansion? with
    | none => (run catalog limit path rest).map (b.withSuffix suffix :: ·)
    | some id =>
      if path.contains id then .error (.cyclic id (path.reverse ++ [id]))
      else if hroom : limit ≤ path.length then .error (.depthExceeded id (path.length + 1) limit)
      else
        match _hget : Ordered.get? catalog id with
        | none => .error (.missingSubForm id [])
        | some s =>
          run catalog limit (id :: path)
            (enterAll s.blocks (b.instanceSuffix ++ suffix) ++ .leave :: rest)
termination_by cost (breadth catalog) (room limit path) tasks
decreasing_by
  -- Leaving gives back one level of room, which the cost of the mark has allowed for.
  · have hle : room limit path.tail ≤ room limit path + 1 := by
      simp only [room, List.length_tail]; omega
    have := cost_mono (breadth catalog) rest hle
    simp only [cost]; omega
  -- A block without a sub-form is taken off.
  · have hpos : 0 < Nat.pow (breadth catalog + 2) (room limit path) := Nat.pow_pos (by omega)
    simp only [cost]; omega
  -- Entering costs one power; the blocks inside, and the mark, together cost less than it.
  · have hlen := length_le_breadth _hget
    obtain ⟨r, hr⟩ : ∃ r, room limit path = r + 1 :=
      ⟨room limit path - 1, by simp only [room]; omega⟩
    have hr' : room limit (id :: path) = r := by
      simp only [room, List.length_cons] at hr ⊢; omega
    simp only [hr, hr', cost_enterAll, cost]
    have hpos : 0 < Nat.pow (breadth catalog + 2) r := Nat.pow_pos (by omega)
    have hstep : Nat.pow (breadth catalog + 2) (r + 1) =
        Nat.pow (breadth catalog + 2) r * (breadth catalog + 2) := rfl
    rw [hstep]
    generalize Nat.pow (breadth catalog + 2) r = w at hpos
    have := Nat.mul_le_mul_right w hlen
    have hexp : w * (breadth catalog + 2) = breadth catalog * w + 2 * w := by
      rw [Nat.mul_add, Nat.mul_comm w, Nat.mul_comm w]
    omega

end Splice

/-- The first id that has occurred before. -/
def firstRepeated? (seen : List String) : List String → Option String
  | [] => none
  | id :: rest => if seen.contains id then some id else firstRepeated? (id :: seen) rest

/-- The blocks with every sub-form spliced into its place. -/
def spliceSubForms (catalog : Catalog) (limit : Int) (blocks : List Block) :
    Except ReferenceError (List Block) := do
  let spliced ← Splice.run catalog limit [] (Splice.enterAll blocks "")
  match firstRepeated? [] (spliced.map Block.id) with
  | some id => .error (.duplicateBlock id)
  | none => .ok spliced

/-- Collects the sub-forms that blocks lead to and splices them. -/
def resolveSubForms {σ : Type} (p : Provider σ) (limit : Int) (blocks : List Block) (s : σ) :
    Except ReferenceError (List Block) × σ :=
  match collectSubForms p blocks s with
  | (.error e, s) => (.error e, s)
  | (.ok [], s) => (.ok blocks, s)
  | (.ok catalog, s) => (spliceSubForms catalog limit blocks, s)

end Formwork
