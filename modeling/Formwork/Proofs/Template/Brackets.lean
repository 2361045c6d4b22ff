/-!
# Sequences with blocks in them

The mustaches of a source and the tags of its printed form nest alike: blocks are opened
and closed, and may be split in between. What differs is what stands for itself, what opens
and closes a block, and what is in scope (`Brackets`). The body of a block has a scope of
its own; whatever is behind its first split has the scope around the block.

A nested sequence is a tree (`Nested`). A reader from left to right has no tree, only the
blocks that are open, and what it still has to find is the rest of each of them
(`Completes`). It finds this exactly if what is in front takes it from the open blocks to
some others (`Turn`), and the rest of those is found behind it.
-/

namespace Formwork.Proofs

/-- What sequences with blocks of some kinds are made of, where something is in scope. -/
structure Brackets (α σ κ : Type) where
  /-- What stands for itself. -/
  plain : σ → α → Prop
  opens : σ → κ → α → Prop
  /-- What is in scope in the body of a block. -/
  inside : κ → σ → σ
  /-- What splits a block, which may have been split before. -/
  splits : Bool → α → Prop
  closes : κ → α → Prop

section Grammar

variable {α σ κ : Type}

mutual

/-- The sequence is nested, with this in scope. -/
inductive Nested (B : Brackets α σ κ) : σ → List α → Prop where
  | nil {s : σ} : Nested B s []
  | plain {s : σ} {a : α} {rest : List α} :
      B.plain s a → Nested B s rest → Nested B s (a :: rest)
  | block {s : σ} {kind : κ} {opening closing : α} {inner rest : List α} :
      B.opens s kind opening → Parts B false (B.inside kind s) s inner → B.closes kind closing →
      Nested B s rest → Nested B s (opening :: (inner ++ closing :: rest))

/-- The sequence is what is left inside a block, which may have been split: a part of it, and behind
each split another one that has the scope around the block. -/
inductive Parts (B : Brackets α σ κ) : Bool → σ → σ → List α → Prop where
  | body {again : Bool} {s around : σ} {body : List α} :
      Nested B s body → Parts B again s around body
  | split {again : Bool} {s around : σ} {split : α} {body rest : List α} :
      Nested B s body → B.splits again split → Parts B true around around rest →
      Parts B again s around (body ++ split :: rest)

end

/-- What is in scope inside the open blocks, innermost first; each is split or not. -/
def scopeInside (B : Brackets α σ κ) (base : σ) : List (κ × Bool) → σ
  | [] => base
  | (_, true) :: outer => scopeInside B base outer
  | (kind, false) :: outer => B.inside kind (scopeInside B base outer)

/-- The sequence is the rest of the open blocks, and of what is around them. -/
inductive Completes (B : Brackets α σ κ) (base : σ) : List (κ × Bool) → List α → Prop where
  | done {rest : List α} : Nested B base rest → Completes B base [] rest
  | close {kind : κ} {split : Bool} {outer : List (κ × Bool)} {inner rest : List α} {closing : α} :
      Parts B split (scopeInside B base ((kind, split) :: outer)) (scopeInside B base outer) inner →
      B.closes kind closing → Completes B base outer rest →
      Completes B base ((kind, split) :: outer) (inner ++ closing :: rest)

/-- What is in front leads from the open blocks to others. -/
inductive Turn (B : Brackets α σ κ) (base : σ) :
    List (κ × Bool) → α → List (κ × Bool) → Prop where
  | plain {blocks : List (κ × Bool)} {a : α} :
      B.plain (scopeInside B base blocks) a → Turn B base blocks a blocks
  | opened {blocks : List (κ × Bool)} {kind : κ} {a : α} :
      B.opens (scopeInside B base blocks) kind a → Turn B base blocks a ((kind, false) :: blocks)
  | closed {kind : κ} {split : Bool} {outer : List (κ × Bool)} {a : α} :
      B.closes kind a → Turn B base ((kind, split) :: outer) a outer
  | split {kind : κ} {split : Bool} {outer : List (κ × Bool)} {a : α} :
      B.splits split a → Turn B base ((kind, split) :: outer) a ((kind, true) :: outer)

end Grammar

section Front

variable {α σ κ : Type} {B : Brackets α σ κ} {base : σ} {blocks blocks' : List (κ × Bool)}
  {a : α} {rest : List α}

/-- What can be put in front of a sequence can be put in front of what is left inside a block. -/
theorem Parts.front {again : Bool} {s around : σ} {front inner : List α}
    (hfront : ∀ xs, Nested B s xs → Nested B s (front ++ xs)) (h : Parts B again s around inner) :
    Parts B again s around (front ++ inner) := by
  cases h with
  | body hbody => exact .body (hfront _ hbody)
  | split hbody hsplit hrest =>
      rw [← List.append_assoc]
      exact .split (hfront _ hbody) hsplit hrest

theorem Completes.front {front : List α}
    (hfront : ∀ xs, Nested B (scopeInside B base blocks) xs →
      Nested B (scopeInside B base blocks) (front ++ xs))
    (h : Completes B base blocks rest) : Completes B base blocks (front ++ rest) := by
  cases h with
  | done hrest => exact .done (hfront _ hrest)
  | close hinner hclose hrest =>
      rw [← List.append_assoc]
      exact .close (hinner.front hfront) hclose hrest

/-- What is found behind a turn is found with it. -/
theorem Turn.completes (ht : Turn B base blocks a blocks') (h : Completes B base blocks' rest) :
    Completes B base blocks (a :: rest) := by
  cases ht with
  | plain ha =>
      have hfront : ∀ xs, Nested B (scopeInside B base blocks) xs →
          Nested B (scopeInside B base blocks) ([a] ++ xs) := fun _ => .plain ha
      exact h.front hfront
  | opened ha =>
      -- the whole block is in front of what is found behind it
      cases h with
      | @close _ _ _ inner rest closing hinner hclose hrest =>
          have hfront : ∀ xs, Nested B (scopeInside B base blocks) xs →
              Nested B (scopeInside B base blocks) ((a :: (inner ++ [closing])) ++ xs) := by
            intro xs hxs
            simpa using Nested.block ha hinner hclose hxs
          simpa using hrest.front hfront
  | closed ha =>
      rw [← List.nil_append (a :: rest)]
      exact .close (.body .nil) ha h
  | split ha =>
      cases h with
      | @close _ _ _ inner rest closing hinner hclose hrest =>
          rw [← List.cons_append, ← List.nil_append (a :: inner)]
          exact .close (.split .nil ha hinner) hclose hrest

/-- The front of a nested sequence is a turn, if any such sequence can be put in front of what is
behind it. -/
theorem Nested.turn {xs : List α} (h : Nested B (scopeInside B base blocks) (a :: xs))
    (hbehind : ∀ ys, Nested B (scopeInside B base blocks) ys → Completes B base blocks (ys ++ rest)) :
    ∃ blocks', Turn B base blocks a blocks' ∧ Completes B base blocks' (xs ++ rest) := by
  cases h with
  | plain ha hxs => exact ⟨blocks, .plain ha, hbehind _ hxs⟩
  | @block _ kind _ closing inner more ha hinner hclose hmore =>
      refine ⟨(kind, false) :: blocks, .opened ha, ?_⟩
      rw [List.append_assoc, List.cons_append]
      exact .close hinner hclose (hbehind _ hmore)

/-- **The rest of the open blocks is found exactly by a turn and what is behind it.** -/
theorem completes_cons_iff :
    Completes B base blocks (a :: rest) ↔
      ∃ blocks', Turn B base blocks a blocks' ∧ Completes B base blocks' rest := by
  constructor
  · intro h
    generalize hxs : a :: rest = xs at h
    cases h with
    | done h =>
        subst hxs
        have hbehind : ∀ ys, Nested B (scopeInside B base []) ys →
            Completes B base [] (ys ++ []) := by
          intro ys hys
          rw [List.append_nil]
          exact .done hys
        have hturn := Nested.turn h hbehind
        rwa [List.append_nil] at hturn
    | @close kind split outer inner behind closing hinner hclose hrest =>
        cases hinner with
        | body hfront =>
            cases inner with
            | nil =>
                cases hxs
                exact ⟨outer, .closed hclose, hrest⟩
            | cons a' inner =>
                obtain ⟨rfl, rfl⟩ := List.cons.inj hxs
                exact hfront.turn fun ys hys => .close (.body hys) hclose hrest
        | @split _ _ _ middle front more hfront hsplit hmore =>
            cases front with
            | nil =>
                cases hxs
                exact ⟨(kind, true) :: outer, .split hsplit, .close hmore hclose hrest⟩
            | cons a' front =>
                obtain ⟨rfl, rfl⟩ := List.cons.inj hxs
                rw [List.append_eq, List.append_eq, List.append_assoc]
                refine hfront.turn fun ys hys => ?_
                rw [← List.append_assoc]
                exact .close (.split hys hsplit hmore) hclose hrest
  · rintro ⟨blocks', ht, h⟩
    exact ht.completes h

theorem completes_nil_iff : Completes B base blocks [] ↔ blocks = [] := by
  constructor
  · intro h
    generalize hxs : ([] : List α) = xs at h
    cases h with
    | done => rfl
    | close => simp at hxs
  · rintro rfl
    exact .done .nil

end Front

end Formwork.Proofs
