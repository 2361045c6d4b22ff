import Formwork.Document.Loading
import Formwork.Proofs.Answer

/-!
# Chains of load steps

A document is loaded step by step, and the source that it comes from goes along: a step that names
no source has that of the step before it. As the source that is named last counts, a chain can be
cut anywhere, and what is cut off is a step of its own (`andThen_assoc`).

A step may do more than answer: it may read a file, or be interrupted. Such a step answers in a
monad (`andThenM`), and a step that is not taken does nothing there. A failure goes through steps
of any kinds to the end, and none of them is taken (`Steps.run_failure`).
-/

namespace Formwork.LoadResult

/-- Runs the next step on the value, where the step may do more than answer. -/
def andThenM {m : Type → Type} [Monad m] {α β : Type} (r : LoadResult α)
    (step : α → m (LoadResult β)) : m (LoadResult β) :=
  match r with
  | .success v _ source => withSource source <$> step v
  | .failure e h _ source => pure (.failure e h none source)

/-- Steps one behind the other, each of which goes on from the value that the one before gives. -/
inductive Steps (m : Type → Type) : Type → Type → Type 1 where
  | done {α : Type} : Steps m α α
  | next {α β γ : Type} (step : α → m (LoadResult β)) (rest : Steps m β γ) : Steps m α γ

/-- Runs the steps on a result. -/
def Steps.run {m : Type → Type} [Monad m] {α β : Type} : Steps m α β → LoadResult α →
    m (LoadResult β)
  | .done, r => pure r
  | .next step rest, r => r.andThenM step >>= rest.run

end Formwork.LoadResult

namespace Formwork.Proofs

open Formwork LoadResult

section Sources

variable {α : Type} (source : Option String) (r : LoadResult α)

@[simp] theorem source?_withSource :
    (r.withSource source).source? = (r.source? <|> source) := by
  cases r <;> rfl

@[simp] theorem value?_withSource : (r.withSource source).value? = r.value? := by
  cases r <;> rfl

@[simp] theorem error?_withSource : (r.withSource source).error? = r.error? := by
  cases r <;> rfl

@[simp] theorem isSuccess_withSource : (r.withSource source).isSuccess = r.isSuccess := by
  cases r <;> rfl

/-- What was named last counts. -/
theorem withSource_withSource (outer : Option String) :
    (r.withSource source).withSource outer = r.withSource (source <|> outer) := by
  cases r <;> simp [withSource, Option.or_assoc]

end Sources

section Steps

variable {α β γ : Type} (r : LoadResult α)

/-- The source of a result is there for a step that comes behind it. -/
theorem andThen_withSource (source : Option String) (f : α → LoadResult β) :
    (r.withSource source).andThen f = (r.andThen f).withSource source := by
  cases r with
  | success v remark own => exact (withSource_withSource own (f v) source).symm
  | failure => rfl

/-- **Steps can be taken together in any way.** -/
theorem andThen_assoc (f : α → LoadResult β) (g : β → LoadResult γ) :
    (r.andThen f).andThen g = r.andThen fun v => (f v).andThen g := by
  cases r with
  | success v remark source => exact andThen_withSource (f v) source g
  | failure => rfl

end Steps

section Effects

variable {m : Type → Type} [Monad m] {α β γ : Type}

theorem andThenM_success (v : α) (remark source : Option String) (f : α → m (LoadResult β)) :
    (LoadResult.success v remark source).andThenM f = withSource source <$> f v := rfl

theorem andThenM_failure {e : String} (h : e ≠ "") (remnant : Option α) (source : Option String)
    (f : α → m (LoadResult β)) :
    (LoadResult.failure e h remnant source).andThenM f = pure (.failure e h none source) := rfl

variable [LawfulMonad m]

/-- A step that only answers is one that does nothing more. -/
theorem andThenM_pure (r : LoadResult α) (f : α → LoadResult β) :
    r.andThenM (fun v => (pure (f v) : m (LoadResult β))) = pure (r.andThen f) := by
  cases r with
  | success v remark source => rw [andThenM_success, map_pure, andThen]
  | failure => rfl

theorem andThenM_withSource (r : LoadResult α) (source : Option String)
    (f : α → m (LoadResult β)) :
    (r.withSource source).andThenM f = withSource source <$> r.andThenM f := by
  cases r with
  | success v remark own =>
      rw [withSource, andThenM_success, andThenM_success, Functor.map_map]
      exact congrArg (· <$> f v) (funext fun s => (withSource_withSource own s source).symm)
  | failure e h remnant own =>
      rw [withSource, andThenM_failure, andThenM_failure, map_pure, withSource]

/-- **Whatever else the steps do, they can be taken together in any way.** -/
theorem andThenM_assoc (r : LoadResult α) (f : α → m (LoadResult β)) (g : β → m (LoadResult γ)) :
    (r.andThenM f >>= fun s => s.andThenM g) =
      r.andThenM fun v => f v >>= fun s => s.andThenM g := by
  cases r with
  | success v remark source =>
      rw [andThenM_success, andThenM_success, bind_map_left, map_bind]
      exact congrArg (f v >>= ·) (funext fun s => andThenM_withSource s source g)
  | failure e h remnant source =>
      rw [andThenM_failure, pure_bind, andThenM_failure, andThenM_failure]

/-- **A failure goes through all steps, and nothing is done in any of them.** -/
theorem Steps.run_failure (steps : Steps m α β) {e : String} (h : e ≠ "") (remnant : Option α)
    (source : Option String) :
    ∃ left, steps.run (.failure e h remnant source) = pure (.failure e h left source) := by
  induction steps with
  | done => exact ⟨remnant, rfl⟩
  | next step rest ih =>
      obtain ⟨left, hrest⟩ := ih none
      refine ⟨left, ?_⟩
      rw [LoadResult.Steps.run, andThenM_failure, pure_bind, hrest]

end Effects

section Laws

variable {α : Type}

/-- Going on with a result as it is changes nothing, as nothing is left over from other steps. -/
theorem ok_andThen_ok (v : α) (source : Option String) :
    (LoadResult.ok v source).andThen (LoadResult.ok · none) = LoadResult.ok v source := rfl

theorem fail?_andThen_ok (error : String) (source : Option String) :
    (fail? error source).map (fun r => r.andThen (LoadResult.ok · none)) =
      (fail? error source : Except LoadResultFault (LoadResult α)) := by
  rw [fail?]
  split <;> rfl

end Laws

/--
**Load results are chained like values, and their sources go along.**

Steps can be taken together in any way, whatever they do besides answering. A success hands its
value and its source to the step behind it, which keeps the source that it names itself. Going on
with a result as it is changes nothing. A failure has its message and its source at the end of
every chain, and no step of the chain is taken.
-/
theorem load_chains {m : Type → Type} [Monad m] [LawfulMonad m] :
    (∀ {α β γ : Type} (r : LoadResult α) (f : α → LoadResult β) (g : β → LoadResult γ),
        (r.andThen f).andThen g = r.andThen fun v => (f v).andThen g)
      ∧ (∀ {α β γ : Type} (r : LoadResult α) (f : α → m (LoadResult β))
          (g : β → m (LoadResult γ)),
        (r.andThenM f >>= fun s => s.andThenM g) =
          r.andThenM fun v => f v >>= fun s => s.andThenM g)
      ∧ (∀ {α β : Type} (r : LoadResult α) (f : α → LoadResult β),
        r.andThenM (fun v => (pure (f v) : m (LoadResult β))) = pure (r.andThen f))
      ∧ (∀ {α β : Type} (v : α) (source : Option String) (f : α → LoadResult β),
        (LoadResult.ok v source).andThen f = (f v).withSource source)
      ∧ (∀ {α : Type} (r : LoadResult α) (source : Option String),
        (r.withSource source).isSuccess = r.isSuccess ∧ (r.withSource source).value? = r.value?
          ∧ (r.withSource source).error? = r.error?
          ∧ (r.withSource source).source? = (r.source? <|> source))
      ∧ (∀ {α : Type} (v : α) (source : Option String),
        (LoadResult.ok v source).andThen (LoadResult.ok · none) = LoadResult.ok v source)
      ∧ (∀ {α : Type} (error : String) (source : Option String),
        (fail? error source).map (fun r => r.andThen (LoadResult.ok · none)) =
          (fail? error source : Except LoadResultFault (LoadResult α)))
      ∧ (∀ {α β : Type} (steps : Steps m α β) {e : String} (h : e ≠ "") (remnant : Option α)
          (source : Option String),
        ∃ left, steps.run (.failure e h remnant source) = pure (.failure e h left source)) := by
  refine ⟨andThen_assoc, andThenM_assoc, andThenM_pure, fun _ _ _ => rfl, fun r source => ?_,
    ok_andThen_ok, fail?_andThen_ok, Steps.run_failure⟩
  exact ⟨isSuccess_withSource source r, value?_withSource source r, error?_withSource source r,
    source?_withSource source r⟩

/-- What is read from a text is from the file that the text is from, however the two steps are taken
together. Where there is no file, nothing is done with its text. -/
theorem load_chains_file :
    (LoadResult.ok "forms/claim.yaml" (some "forms/claim.yaml")).andThen
        (fun _ => (LoadResult.ok "id: claim" none).andThen fun content =>
          LoadResult.ok content.length none) =
        LoadResult.ok 9 (some "forms/claim.yaml")
      ∧ ∃ left : Option Nat,
        (Steps.next (fun _ : String => (.error .notText : Except Interruption (LoadResult Nat)))
          .done).run (.failure "Descriptor file not found" (by decide) none (some "claim.yaml")) =
        .ok (.failure "Descriptor file not found" (by decide) left (some "claim.yaml")) := by
  obtain ⟨hassoc, -, -, hstep, -, -, -, hfailure⟩ := load_chains (m := Except Interruption)
  refine ⟨?_, hfailure _ _ none _⟩
  rw [← hassoc, hstep]
  rfl

end Formwork.Proofs
