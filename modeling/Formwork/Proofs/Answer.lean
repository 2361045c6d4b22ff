/-!
# Steps that answer or fail

What it takes for a chain of such steps, or for one step taken with every element of a
list, to answer.
-/

namespace Formwork.Proofs

theorem bind_eq_ok {ε α β : Type} {x : Except ε α} {g : α → Except ε β} {y : β} :
    (x >>= g) = .ok y ↔ ∃ a, x = .ok a ∧ g a = .ok y := by
  cases x with
  | error e => simp [bind, Except.bind]
  | ok a => simp [bind, Except.bind]

theorem bind_eq_error {ε α β : Type} {x : Except ε α} {g : α → Except ε β} {e : ε} :
    (x >>= g) = .error e ↔ x = .error e ∨ ∃ a, x = .ok a ∧ g a = .error e := by
  cases x with
  | error e => simp [bind, Except.bind]
  | ok a => simp [bind, Except.bind]

theorem bind_unit_eq_ok {ε β : Type} {x : Except ε Unit} {g : Unit → Except ε β} {y : β} :
    (x >>= g) = .ok y ↔ x = .ok () ∧ g () = .ok y := by
  rw [bind_eq_ok]
  exact ⟨fun ⟨⟨⟩, hx, hg⟩ => ⟨hx, hg⟩, fun ⟨hx, hg⟩ => ⟨(), hx, hg⟩⟩

theorem ok_bind {ε α β : Type} (a : α) (g : α → Except ε β) : (Except.ok a >>= g) = g a := rfl

theorem map_eq_ok {ε α β : Type} {x : Except ε α} {g : α → β} {y : β} :
    x.map g = .ok y ↔ ∃ a, x = .ok a ∧ g a = y := by
  cases x with
  | error e => simp [Except.map]
  | ok a => simp [Except.map]

theorem map_eq_error {ε α β : Type} {x : Except ε α} {g : α → β} {e : ε} :
    x.map g = .error e ↔ x = .error e := by
  cases x <;> simp [Except.map]

theorem mapError_ok {ε ε' α : Type} (a : α) (g : ε → ε') :
    (Except.ok a).mapError g = .ok a := rfl

theorem mapError_error {ε ε' α : Type} (e : ε) (g : ε → ε') :
    (Except.error e : Except ε α).mapError g = .error (g e) := rfl

theorem mapError_eq_ok {ε ε' α : Type} {x : Except ε α} {g : ε → ε'} {a : α} :
    x.mapError g = .ok a ↔ x = .ok a := by
  cases x <;> simp [mapError_ok, mapError_error]

theorem mapError_eq_error {ε ε' α : Type} {x : Except ε α} {g : ε → ε'} {e' : ε'} :
    x.mapError g = .error e' ↔ ∃ e, x = .error e ∧ g e = e' := by
  cases x <;> simp [mapError_ok, mapError_error]

theorem toOption_eq_some_iff {ε α : Type} {x : Except ε α} {a : α} :
    x.toOption = some a ↔ x = .ok a := by
  cases x <;> simp [Except.toOption]

/-- A step that always answers only changes the answer before it. -/
theorem bind_ok_eq_map {ε α β : Type} (x : Except ε α) (g : α → β) :
    (x >>= fun a => .ok (g a)) = x.map g := by
  cases x <;> rfl

theorem mapM_cons_eq_ok {ε α β : Type} {g : α → Except ε β} {x : α} {xs : List α} {ys : List β} :
    (x :: xs).mapM g = .ok ys ↔ ∃ y zs, g x = .ok y ∧ xs.mapM g = .ok zs ∧ y :: zs = ys := by
  rw [List.mapM_cons]
  constructor
  · intro h
    obtain ⟨y, hx, hrest⟩ := bind_eq_ok.mp h
    obtain ⟨zs, hzs, heq⟩ := bind_eq_ok.mp hrest
    cases heq
    exact ⟨y, zs, hx, hzs, rfl⟩
  · rintro ⟨y, zs, hx, hzs, rfl⟩
    rw [hx, hzs]
    rfl

theorem mapM_ok_length {α β ε : Type} {g : α → Except ε β} {xs : List α} {ys : List β}
    (h : xs.mapM g = .ok ys) : ys.length = xs.length := by
  induction xs generalizing ys with
  | nil => cases h; rfl
  | cons x xs ih =>
      obtain ⟨y, zs, -, hzs, rfl⟩ := mapM_cons_eq_ok.mp h
      rw [List.length_cons, List.length_cons, ih hzs]

theorem mapM_ok_of_forall {α β ε : Type} {g : α → Except ε β} {y : α → β} {xs : List α}
    (h : ∀ x ∈ xs, g x = .ok (y x)) : xs.mapM g = .ok (xs.map y) := by
  induction xs with
  | nil => rfl
  | cons x xs ih =>
      rw [List.mapM_cons, h x (List.mem_cons_self ..),
        ih fun x hx => h x (List.mem_cons_of_mem _ hx)]
      rfl

theorem mapM_congr {α β ε : Type} {g g' : α → Except ε β} {xs : List α}
    (h : ∀ x ∈ xs, g x = g' x) : xs.mapM g = xs.mapM g' := by
  induction xs with
  | nil => rfl
  | cons x xs ih =>
      rw [List.mapM_cons, List.mapM_cons, h x (List.mem_cons_self ..),
        ih fun x hx => h x (List.mem_cons_of_mem _ hx)]

/-- What all steps answer was answered by one of them. -/
theorem mem_mapM {ε α β : Type} {g : α → Except ε β} {xs : List α} {ys : List β} {y : β}
    (h : xs.mapM g = .ok ys) (hy : y ∈ ys) : ∃ x ∈ xs, g x = .ok y := by
  induction xs generalizing ys with
  | nil => cases h; exact absurd hy List.not_mem_nil
  | cons x xs ih =>
      obtain ⟨z, zs, hx, hzs, rfl⟩ := mapM_cons_eq_ok.mp h
      rcases List.mem_cons.mp hy with rfl | hy
      · exact ⟨x, List.mem_cons_self .., hx⟩
      · obtain ⟨x', hx', hg⟩ := ih hzs hy
        exact ⟨x', List.mem_cons_of_mem _ hx', hg⟩

/-- Every step has its answer where it stands. -/
theorem getElem?_mapM {ε α β : Type} {g : α → Except ε β} {xs : List α} {ys : List β} {x : α}
    {i : Nat} (h : xs.mapM g = .ok ys) (hx : xs[i]? = some x) :
    ∃ y, ys[i]? = some y ∧ g x = .ok y := by
  induction xs generalizing ys i with
  | nil => cases hx
  | cons x' xs ih =>
      obtain ⟨z, zs, hx', hzs, rfl⟩ := mapM_cons_eq_ok.mp h
      cases i with
      | zero =>
          cases hx
          exact ⟨z, rfl, hx'⟩
      | succ i =>
          obtain ⟨y, hy, hg⟩ := ih hzs hx
          exact ⟨y, hy, hg⟩

/-- Every step has its answer among what all steps answer. -/
theorem exists_mem_of_mapM {ε α β : Type} {g : α → Except ε β} {xs : List α} {ys : List β} {x : α}
    (h : xs.mapM g = .ok ys) (hx : x ∈ xs) : ∃ y ∈ ys, g x = .ok y := by
  obtain ⟨i, hi⟩ := List.getElem?_of_mem hx
  obtain ⟨y, hy, hg⟩ := getElem?_mapM h hi
  exact ⟨y, List.mem_of_getElem? hy, hg⟩

/-- What every step leaves as it is, all steps leave as it is. -/
theorem map_eq_of_mapM {ε α β γ : Type} {g : α → Except ε β} {p : β → γ} {q : α → γ}
    (hg : ∀ x y, g x = .ok y → p y = q x) {xs : List α} {ys : List β} (h : xs.mapM g = .ok ys) :
    ys.map p = xs.map q := by
  induction xs generalizing ys with
  | nil => cases h; rfl
  | cons x xs ih =>
      obtain ⟨y, zs, hx, hzs, rfl⟩ := mapM_cons_eq_ok.mp h
      rw [List.map_cons, List.map_cons, hg x y hx, ih hzs]

theorem mem_filterMapM {ε α β : Type} {g : α → Except ε (Option β)} {xs : List α} {ys : List β}
    {y : β} (h : xs.filterMapM g = .ok ys) (hy : y ∈ ys) : ∃ x ∈ xs, g x = .ok (some y) := by
  induction xs generalizing ys with
  | nil => cases h; exact absurd hy List.not_mem_nil
  | cons x xs ih =>
      rw [List.filterMapM_cons] at h
      obtain ⟨found, hx, hrest⟩ := bind_eq_ok.mp h
      cases found with
      | none =>
          obtain ⟨x', hx', hg⟩ := ih hrest hy
          exact ⟨x', List.mem_cons_of_mem _ hx', hg⟩
      | some z =>
          obtain ⟨zs, hzs, heq⟩ := bind_eq_ok.mp hrest
          cases heq
          rcases List.mem_cons.mp hy with rfl | hy
          · exact ⟨x, List.mem_cons_self .., hx⟩
          · obtain ⟨x', hx', hg⟩ := ih hzs hy
            exact ⟨x', List.mem_cons_of_mem _ hx', hg⟩

/-! ## Steps one after another -/

/-- A step without its answer. -/
def done {ε α : Type} (x : Except ε α) : Except ε Unit := x.map fun _ => ()

section Steps

variable {ε α β σ : Type} {x : Except ε α} {run : σ → Except ε Unit}

theorem done_eq_error {e : ε} : done x = .error e ↔ x = .error e := by
  cases x <;> simp [done, Except.map]

/-- Steps taken with every element are taken one after another. -/
theorem done_mapM {g : α → Except ε β} (xs : List α) :
    done (xs.mapM g) = forM xs fun a => done (g a) := by
  induction xs with
  | nil => rfl
  | cons a xs ih =>
      rw [List.mapM_cons, List.forM_cons, ← ih]
      cases g a with
      | error e => rfl
      | ok b => cases xs.mapM g <;> rfl

theorem forM_eq_ok_iff {steps : List σ} :
    forM steps run = .ok () ↔ ∀ s ∈ steps, run s = .ok () := by
  induction steps with
  | nil => exact ⟨fun _ => List.forall_mem_nil _, fun _ => rfl⟩
  | cons first rest ih =>
      rw [List.forM_cons, bind_eq_ok, List.forall_mem_cons]
      refine ⟨fun ⟨⟨⟩, hfirst, hrest⟩ => ⟨hfirst, ih.mp hrest⟩, fun ⟨hfirst, hrest⟩ => ?_⟩
      exact ⟨(), hfirst, ih.mpr hrest⟩

/-- Steps one after another fail as the first that does. -/
theorem forM_eq_error_iff {steps : List σ} {e : ε} :
    forM steps run = .error e ↔
      ∃ before s after, steps = before ++ s :: after ∧ (∀ b ∈ before, run b = .ok ())
        ∧ run s = .error e := by
  induction steps with
  | nil => exact ⟨nofun, fun ⟨before, s, after, h, _⟩ => by simp at h⟩
  | cons first rest ih =>
      rw [List.forM_cons]
      constructor
      · intro h
        rcases bind_eq_error.mp h with hfirst | ⟨⟨⟩, hfirst, hrest⟩
        · exact ⟨[], first, rest, rfl, List.forall_mem_nil _, hfirst⟩
        · obtain ⟨before, s, after, rfl, hbefore, hs⟩ := ih.mp hrest
          exact ⟨first :: before, s, after, rfl, List.forall_mem_cons.mpr ⟨hfirst, hbefore⟩, hs⟩
      · rintro ⟨before, s, after, heq, hbefore, hs⟩
        cases before with
        | nil =>
            cases heq
            rw [hs]
            rfl
        | cons b before =>
            cases heq
            obtain ⟨hfirst, hbefore⟩ := List.forall_mem_cons.mp hbefore
            rw [hfirst]
            exact ih.mpr ⟨before, s, after, rfl, hbefore, hs⟩

theorem done_eq_ok {y : Unit} : done x = .ok y ↔ ∃ a, x = .ok a := by
  cases x <;> simp [done, Except.map]

/-- Steps taken with every element fail as the first that does. -/
theorem mapM_eq_error_iff {g : α → Except ε β} {xs : List α} {e : ε} :
    xs.mapM g = .error e ↔
      ∃ before x after, xs = before ++ x :: after ∧ (∀ a ∈ before, ∃ b, g a = .ok b)
        ∧ g x = .error e := by
  rw [← done_eq_error, done_mapM, forM_eq_error_iff]
  simp only [done_eq_ok, done_eq_error]

/-- Steps taken with every element answer when each of them does. -/
theorem mapM_answers_iff {g : α → Except ε β} {xs : List α} :
    (∃ ys, xs.mapM g = .ok ys) ↔ ∀ x ∈ xs, ∃ y, g x = .ok y := by
  rw [← done_eq_ok (y := ()), done_mapM, forM_eq_ok_iff]
  simp only [done_eq_ok]

end Steps

/-! ## Answers that are lists -/

/-- What steps answer, one list after another. -/
def gather {ε α β : Type} (g : α → Except ε (List β)) (xs : List α) : Except ε (List β) :=
  (xs.mapM g).map List.flatten

section Gather

variable {ε α β : Type} {g : α → Except ε (List β)}

theorem gather_nil : gather g [] = .ok [] := rfl

theorem gather_cons (x : α) (xs : List α) :
    gather g (x :: xs) = g x >>= fun ys => (gather g xs).map (ys ++ ·) := by
  unfold gather
  rw [List.mapM_cons]
  cases g x with
  | error e => rfl
  | ok ys => cases xs.mapM g <;> rfl

theorem gather_cons_eq_ok {x : α} {xs : List α} {zs : List β} :
    gather g (x :: xs) = .ok zs ↔
      ∃ ys rest, g x = .ok ys ∧ gather g xs = .ok rest ∧ ys ++ rest = zs := by
  rw [gather_cons, bind_eq_ok]
  simp only [map_eq_ok, exists_and_left]

theorem gather_append (xs ys : List α) :
    gather g (xs ++ ys) = gather g xs >>= fun zs => (gather g ys).map (zs ++ ·) := by
  induction xs with
  | nil =>
      rw [gather_nil, List.nil_append]
      cases gather g ys <;> rfl
  | cons x xs ih =>
      rw [List.cons_append, gather_cons, gather_cons, ih]
      cases g x with
      | error e => rfl
      | ok zs =>
          cases gather g xs with
          | error e => rfl
          | ok more => cases gather g ys <;> simp [bind, Except.bind, Except.map]

theorem mem_gather {xs : List α} {zs : List β} (h : gather g xs = .ok zs) {z : β} (hz : z ∈ zs) :
    ∃ x ∈ xs, ∃ ys, g x = .ok ys ∧ z ∈ ys := by
  obtain ⟨parts, hparts, rfl⟩ := map_eq_ok.mp h
  obtain ⟨ys, hys, hz⟩ := List.mem_flatten.mp hz
  obtain ⟨x, hx, hg⟩ := mem_mapM hparts hys
  exact ⟨x, hx, ys, hg, hz⟩

/-- Where the answers to each step bear its name, they can be picked out again. -/
theorem filter_gather {τ : Type} [DecidableEq τ] {tag : β → τ} {name : α → τ} {xs : List α}
    {zs : List β} (hnd : (xs.map name).Nodup)
    (htag : ∀ x ∈ xs, ∀ ys, g x = .ok ys → ∀ y ∈ ys, tag y = name x)
    (h : gather g xs = .ok zs) {x : α} (hx : x ∈ xs) :
    g x = .ok (zs.filter fun z => tag z = name x) := by
  induction xs generalizing zs with
  | nil => exact absurd hx List.not_mem_nil
  | cons x' xs ih =>
      obtain ⟨ys, rest, hhead, htail, rfl⟩ := gather_cons_eq_ok.mp h
      obtain ⟨hfresh, hnd⟩ := List.nodup_cons.mp hnd
      have hrest : ∀ z ∈ rest, ∃ x'' ∈ xs, tag z = name x'' := by
        intro z hz
        obtain ⟨x'', hx'', ys'', hg, hz⟩ := mem_gather htail hz
        exact ⟨x'', hx'', htag x'' (List.mem_cons_of_mem _ hx'') ys'' hg z hz⟩
      rw [List.filter_append]
      rcases List.mem_cons.mp hx with rfl | hx
      · -- the head's answers all stay, and none of the others does
        have hys : ys.filter (fun z => tag z = name x) = ys := by
          refine List.filter_eq_self.mpr fun y hy => ?_
          simpa using htag x (List.mem_cons_self ..) ys hhead y hy
        have hnone : rest.filter (fun z => tag z = name x) = [] := by
          refine List.filter_eq_nil_iff.mpr fun z hz => ?_
          obtain ⟨x'', hx'', htagz⟩ := hrest z hz
          rw [decide_eq_true_eq, htagz]
          exact fun heq => hfresh (heq ▸ List.mem_map_of_mem hx'')
        rw [hys, hnone, List.append_nil, hhead]
      · have hnone : ys.filter (fun z => tag z = name x) = [] := by
          refine List.filter_eq_nil_iff.mpr fun y hy => ?_
          rw [decide_eq_true_eq, htag x' (List.mem_cons_self ..) ys hhead y hy]
          exact fun heq => hfresh (heq ▸ List.mem_map_of_mem hx)
        rw [hnone, List.nil_append]
        exact ih hnd (fun x'' hx'' => htag x'' (List.mem_cons_of_mem _ hx'')) htail hx

end Gather

/-! ## When steps fail -/

/-- A step fails under a condition, with an error of some kind, and answers otherwise. -/
structure Fails {ε α : Type} (x : Except ε α) (kind : ε → Prop) (p : Prop) : Prop where
  fails : p → ∃ e, kind e ∧ x = .error e
  answers : ¬p → ∃ a, x = .ok a

section Fails

variable {ε α β : Type} {kind : ε → Prop} {p q : Prop} {x : Except ε α}

theorem Fails.ok_of_not (a : α) (hp : ¬p) : Fails (.ok a : Except ε α) kind p :=
  ⟨fun h => absurd h hp, fun _ => ⟨a, rfl⟩⟩

theorem Fails.ok (a : α) : Fails (.ok a : Except ε α) kind False := .ok_of_not a id

theorem Fails.error {e : ε} (h : kind e) (hp : p) : Fails (.error e : Except ε α) kind p :=
  ⟨fun _ => ⟨e, h, rfl⟩, fun hno => absurd hp hno⟩

theorem Fails.congr (h : Fails x kind p) (hpq : p ↔ q) : Fails x kind q :=
  ⟨fun hq => h.fails (hpq.mpr hq), fun hq => h.answers fun hp => hq (hpq.mp hp)⟩

theorem Fails.answers_iff (h : Fails x kind p) : (∃ a, x = .ok a) ↔ ¬p := by
  refine ⟨fun ⟨a, ha⟩ hp => ?_, h.answers⟩
  obtain ⟨e, -, he⟩ := h.fails hp
  rw [ha] at he
  cases he

theorem Fails.map (h : Fails x kind p) (g : α → β) : Fails (x.map g) kind p where
  fails hp := by
    obtain ⟨e, hkind, rfl⟩ := h.fails hp
    exact ⟨e, hkind, rfl⟩
  answers hp := by
    obtain ⟨a, rfl⟩ := h.answers hp
    exact ⟨g a, rfl⟩

/-- Of two steps the first fails, or the second after the answer of the first. -/
theorem Fails.bind {g : α → Except ε β} (h : Fails x kind p)
    (hg : ∀ a, x = .ok a → Fails (g a) kind q) : Fails (x >>= g) kind (p ∨ q) := by
  by_cases hp : p
  · obtain ⟨e, hkind, rfl⟩ := h.fails hp
    exact ⟨fun _ => ⟨e, hkind, rfl⟩, fun hno => absurd (.inl hp) hno⟩
  · obtain ⟨a, rfl⟩ := h.answers hp
    exact (hg a rfl).congr (by simp [hp])

/-- Steps taken with every element fail when one of them does. -/
theorem Fails.mapM {g : α → Except ε β} {p : α → Prop} {xs : List α}
    (h : ∀ x ∈ xs, Fails (g x) kind (p x)) : Fails (xs.mapM g) kind (∃ x ∈ xs, p x) := by
  induction xs with
  | nil => exact Fails.ok_of_not [] (by simp)
  | cons x xs ih =>
      obtain ⟨hx, hxs⟩ := List.forall_mem_cons.mp h
      rw [List.mapM_cons]
      exact (hx.bind fun y _ => (ih hxs).bind fun ys _ => Fails.ok (y :: ys)).congr (by simp)

end Fails

/-- The errors that a step may fail with are of some kind. -/
structure FailsOnly {ε α : Type} (x : Except ε α) (kind : ε → Prop) : Prop where
  errors : ∀ e, x = .error e → kind e

section FailsOnly

variable {ε α β : Type} {kind : ε → Prop} {x : Except ε α}

theorem FailsOnly.ok (a : α) : FailsOnly (.ok a : Except ε α) kind := ⟨nofun⟩

theorem FailsOnly.error {e : ε} (h : kind e) : FailsOnly (.error e : Except ε α) kind := by
  constructor
  rintro _ ⟨⟩
  exact h

theorem FailsOnly.bind {g : α → Except ε β} (h : FailsOnly x kind)
    (hg : ∀ a, FailsOnly (g a) kind) : FailsOnly (x >>= g) kind := by
  cases x with
  | error e => exact .error (h.errors e rfl)
  | ok a => exact hg a

theorem FailsOnly.map (h : FailsOnly x kind) (g : α → β) : FailsOnly (x.map g) kind := by
  cases x with
  | error e => exact .error (h.errors e rfl)
  | ok a => exact .ok _

end FailsOnly

/-- A step answers with what is in place, or fails with errors of some kind. -/
structure KeepsTo {ε α : Type} (place : α → Prop) (kind : ε → Prop) (x : Except ε α) : Prop where
  stays : ∀ a, x = .ok a → place a
  fails : ∀ e, x = .error e → kind e

section KeepsTo

variable {ε α β : Type} {place : α → Prop} {place' : β → Prop} {kind : ε → Prop} {x : Except ε α}

theorem KeepsTo.ok {a : α} (h : place a) : KeepsTo place kind (.ok a) :=
  ⟨by rintro _ ⟨⟩; exact h, nofun⟩

theorem KeepsTo.error {e : ε} (h : kind e) : KeepsTo place kind (.error e) :=
  ⟨nofun, by rintro _ ⟨⟩; exact h⟩

theorem KeepsTo.ite {p : Prop} [Decidable p] {y : Except ε α} (hx : KeepsTo place kind x)
    (hy : KeepsTo place kind y) : KeepsTo place kind (if p then x else y) := by
  split
  · exact hx
  · exact hy

theorem KeepsTo.bind {g : α → Except ε β} (h : KeepsTo place kind x)
    (hg : ∀ a, place a → KeepsTo place' kind (g a)) : KeepsTo place' kind (x >>= g) := by
  cases x with
  | error e => exact .error (h.fails e rfl)
  | ok a => exact hg a (h.stays a rfl)

theorem KeepsTo.map {g : α → β} (h : KeepsTo place kind x) (hg : ∀ a, place a → place' (g a)) :
    KeepsTo place' kind (x.map g) := by
  cases x with
  | error e => exact .error (h.fails e rfl)
  | ok a => exact .ok (hg a (h.stays a rfl))

end KeepsTo

end Formwork.Proofs
