import Formwork.Rules.Merge

/-!
# Statuses key by key

A status has three keys, and all that is said of one is said of the others. What a key
comes to is its template (`templateAt`): without a status, unset and cleared keys have
none. An overlay is followed key by key, and settling keeps exactly the templates.
-/

namespace Formwork

/-- A status with its templates and nothing else. -/
def Status.onlyTemplates (s : Status) : Status :=
  ⟨.ofText? s.hidden.text?, .ofText? s.disabled.text?, .ofText? s.readonly.text?⟩

end Formwork

namespace Formwork.Proofs

open Formwork

/-- The keys of a status. -/
inductive StatusKey where
  | hidden | disabled | readonly
  deriving DecidableEq

/-- What a status says under a key. -/
def entryAt (s : Status) : StatusKey → StatusEntry
  | .hidden => s.hidden
  | .disabled => s.disabled
  | .readonly => s.readonly

/-- The template under a key, if there is a status and it has one. -/
def templateAt (status : Option Status) (k : StatusKey) : Option String :=
  status.bind fun s => (entryAt s k).text?

theorem text?_overlay (base top : StatusEntry) :
    (base.overlay top).text? = if top = .unset then base.text? else top.text? := by
  cases top <;> rfl

@[simp] theorem text?_ofText? (t : Option String) : (StatusEntry.ofText? t).text? = t := by
  cases t <;> rfl

theorem entryAt_overlay (base top : Status) (k : StatusKey) :
    entryAt (base.overlay top) k = (entryAt base k).overlay (entryAt top k) := by
  cases k <;> rfl

theorem entryAt_onlyTemplates (s : Status) (k : StatusKey) :
    entryAt s.onlyTemplates k = .ofText? (entryAt s k).text? := by
  cases k <;> rfl

theorem text?_empty (k : StatusKey) : (entryAt .empty k).text? = none := by
  cases k <;> rfl

/-- Statuses that say the same under each key are the same. -/
theorem status_ext {s t : Status} (h : ∀ k, entryAt s k = entryAt t k) : s = t := by
  cases s
  cases t
  rw [Status.mk.injEq]
  exact ⟨h .hidden, h .disabled, h .readonly⟩

/-- Two statuses have the same templates, apart from how the keys without one are said. -/
theorem onlyTemplates_eq_iff {s t : Status} :
    s.onlyTemplates = t.onlyTemplates ↔ ∀ k, (entryAt s k).text? = (entryAt t k).text? := by
  constructor
  · intro h k
    have hk := congrArg (fun u => (entryAt u k).text?) h
    simpa only [entryAt_onlyTemplates, text?_ofText?] using hk
  · intro h
    refine status_ext fun k => ?_
    rw [entryAt_onlyTemplates, entryAt_onlyTemplates, h k]

/-! ## Settling -/

theorem settled?_eq (s : Status) :
    s.settled? = if s.onlyTemplates = .empty then none else some s.onlyTemplates := rfl

/-- Nothing is left in a status without templates. -/
theorem onlyTemplates_eq_empty {s : Status} (h : ∀ k, (entryAt s k).text? = none) :
    s.onlyTemplates = .empty := by
  refine (onlyTemplates_eq_iff (t := .empty)).mpr fun k => ?_
  rw [h k, text?_empty]

/-- Settling keeps the templates. -/
theorem templateAt_settled? (s : Status) (k : StatusKey) :
    templateAt s.settled? k = (entryAt s k).text? := by
  have hkey : (entryAt s.onlyTemplates k).text? = (entryAt s k).text? := by
    rw [entryAt_onlyTemplates, text?_ofText?]
  rw [settled?_eq]
  split
  · rename_i hempty
    rw [← hkey, hempty, text?_empty]
    rfl
  · exact hkey

theorem templateAt_getD_empty (base : Option Status) (k : StatusKey) :
    (entryAt (base.getD .empty) k).text? = templateAt base k := by
  cases base with
  | none => exact text?_empty k
  | some s => rfl

/-- What an overlay leaves under a key. -/
theorem templateAt_merge? (base : Option Status) (t : Status) (k : StatusKey) :
    templateAt (Status.merge? base (some t)) k =
      if entryAt t k = .unset then templateAt base k else (entryAt t k).text? := by
  rw [Status.merge?, templateAt_settled?, entryAt_overlay, text?_overlay, templateAt_getD_empty]

/-- What is left of two statuses is the same when they have the same templates. -/
theorem settled?_eq_iff {s t : Status} :
    s.settled? = t.settled? ↔ ∀ k, (entryAt s k).text? = (entryAt t k).text? := by
  constructor
  · intro h k
    rw [← templateAt_settled?, h, templateAt_settled?]
  · intro h
    rw [settled?_eq, settled?_eq, onlyTemplates_eq_iff.mpr h]

end Formwork.Proofs
