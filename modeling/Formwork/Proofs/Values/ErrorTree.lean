import Formwork.Proofs.Ordered
import Formwork.Values.ErrorTree

/-!
# Reading an error tree

In a tree that was built from issues an object is either an error, whose message is a
text, or has others below it, which lead to errors (`Tree`). An error is placed unless its
path crosses that of another, one being a part-wise prefix of the other, or leads through
an object that is marked: one with the key of messages among those of its parts (`Free`).
Then it stands at its own path, and all else as before; otherwise the tree stays as it is.

A marked object is read as an error as well (`errorAt`), though none stands there
(`leafAt`). Everywhere else what is read is what stands there.
-/

namespace Formwork.Proofs

open Formwork ErrorTree

/-! ## Parts of paths -/

theorem not_mem_of_mem_splitOn {α : Type} [BEq α] [LawfulBEq α] {sep : α} {xs part : List α}
    (h : part ∈ xs.splitOn sep) : sep ∉ part := by
  induction xs generalizing part with
  | nil =>
      obtain rfl := List.mem_singleton.mp (List.splitOn_nil sep ▸ h)
      exact List.not_mem_nil
  | cons x xs ih =>
      rw [List.splitOn_cons_eq_if_modifyHead] at h
      split at h
      · rcases List.mem_cons.mp h with rfl | h
        · exact List.not_mem_nil
        · exact ih h
      · rename_i hx
        cases hxs : xs.splitOn sep with
        | nil => exact absurd hxs (List.splitOn_ne_nil sep xs)
        | cons first rest =>
            rw [hxs] at h ih
            rcases List.mem_cons.mp h with rfl | h
            · have hne : sep ≠ x := fun heq => hx (by simp [heq])
              exact List.not_mem_cons_of_ne_of_not_mem hne (ih (List.mem_cons_self ..))
            · exact ih (List.mem_cons_of_mem _ h)

theorem pathParts_ne_nil (p : String) : pathParts p ≠ [] := fun h =>
  List.splitOn_ne_nil '.' p.toList (List.map_eq_nil_iff.mp h)

/-- A part has no parts. -/
theorem pathParts_part {p part : String} (h : part ∈ pathParts p) : pathParts part = [part] := by
  obtain ⟨cs, hcs, rfl⟩ := List.mem_map.mp h
  show ((String.ofList cs).toList.splitOn '.').map String.ofList = _
  rw [String.toList_ofList, List.splitOn_eq_singleton (not_mem_of_mem_splitOn hcs)]
  rfl

/-- A path is its parts with points between them. -/
theorem pathParts_inj {p q : String} : pathParts p = pathParts q ↔ p = q := by
  refine ⟨fun h => ?_, fun h => h ▸ rfl⟩
  have hsplit : p.toList.splitOn '.' = q.toList.splitOn '.' :=
    (List.map_inj_right fun _ _ => String.ofList_injective).mp h
  have hjoin (s : String) : ['.'].intercalate (s.toList.splitOn '.') = s.toList :=
    List.intercalate_splitOn '.'
  rw [← String.toList_inj, ← hjoin p, hsplit, hjoin q]

/-! ## Trees -/

/-- The error of an issue. -/
def errorOf (i : Issue) : Members := [(messageKey, .str i.message), ("type", .str i.code)]

/-- The members of an object whose message is a text. -/
def leaf? : Value → Option Members
  | .object ms => if ((Ordered.get? ms messageKey).bind Value.text?).isSome then some ms else none
  | _ => none

/-- What is read at the parts of a path. -/
def errorAt : List String → Value → Option Members
  | [], v => asError? v
  | part :: rest, v => (v.members?.bind fun ms => Ordered.get? ms part).bind (errorAt rest)

/-- The error that stands at the parts of a path. -/
def leafAt : List String → Value → Option Members
  | [], v => leaf? v
  | part :: rest, v => (v.members?.bind fun ms => Ordered.get? ms part).bind (leafAt rest)

/-- The values of an error tree: errors, and objects that lead to errors. -/
inductive Tree : Value → Prop where
  | error (i : Issue) : Tree (entry i)
  | branch {ms : Members} : (∃ part v, Ordered.get? ms part = some v) →
      (∀ part v, Ordered.get? ms part = some v → Tree v) → Tree (.object ms)

/-- All that is below an object is a tree. -/
def Forest (ms : Members) : Prop := ∀ part v, Ordered.get? ms part = some v → Tree v

theorem forest_nil : Forest [] := nofun

theorem errorAt_object (part : String) (rest : List String) (ms : Members) :
    errorAt (part :: rest) (.object ms) = (Ordered.get? ms part).bind (errorAt rest) := rfl

theorem leafAt_object (part : String) (rest : List String) (ms : Members) :
    leafAt (part :: rest) (.object ms) = (Ordered.get? ms part).bind (leafAt rest) := rfl

/-- An error below an object is below what the object has under a part. -/
theorem exists_of_leafAt_cons {part : String} {q : List String} {ms : Members}
    (h : leafAt (part :: q) (.object ms) ≠ none) :
    ∃ v, Ordered.get? ms part = some v ∧ leafAt q v ≠ none := by
  rw [leafAt_object] at h
  cases hv : Ordered.get? ms part with
  | none => rw [hv] at h; exact absurd rfl h
  | some v => rw [hv] at h; exact ⟨v, rfl, h⟩

/-- No error stands at an object with trees below it. -/
theorem Forest.leafAt_nil {ms : Members} (h : Forest ms) : leafAt [] (.object ms) = none := by
  refine if_neg fun hsome => ?_
  cases hv : Ordered.get? ms messageKey with
  | none => rw [hv] at hsome; cases hsome
  | some v =>
      rw [hv] at hsome
      cases h messageKey v hv <;> cases hsome

theorem leafAt_str (q : List String) (s : String) : leafAt q (.str s) = none := by
  cases q <;> rfl

theorem leafAt_entry (i : Issue) (q : List String) :
    leafAt q (entry i) = if q = [] then some (errorOf i) else none := by
  cases q with
  | nil => rfl
  | cons part rest =>
      show (Ordered.get? (errorOf i) part).bind (leafAt rest) = _
      rw [errorOf, Ordered.get?_cons, Ordered.get?_cons]
      split
      · exact leafAt_str rest i.message
      · split
        · exact leafAt_str rest i.code
        · rfl

/-- Every tree has an error somewhere. -/
theorem Tree.occupied {v : Value} (h : Tree v) : ∃ q, leafAt q v ≠ none := by
  induction h with
  | error i => exact ⟨[], nofun⟩
  | branch hsome _ ih =>
      obtain ⟨part, v, hv⟩ := hsome
      obtain ⟨q, hq⟩ := ih part v hv
      refine ⟨part :: q, ?_⟩
      rw [leafAt_object, hv]
      exact hq

/-- What is read is what stands there, or an error stands under the key of messages. -/
theorem Tree.read {v : Value} (h : Tree v) (q : List String) :
    errorAt q v = leafAt q v ∨ ∃ w, leafAt (q ++ messageKey :: w) v ≠ none := by
  induction h generalizing q with
  | error i =>
      left
      cases q with
      | nil => rfl
      | cons part rest =>
          show (Ordered.get? (errorOf i) part).bind _ = (Ordered.get? (errorOf i) part).bind _
          rw [errorOf, Ordered.get?_cons, Ordered.get?_cons]
          split
          · cases rest <;> rfl
          · split
            · cases rest <;> rfl
            · rfl
  | @branch ms _ hforest ih =>
      cases q with
      | nil =>
          cases hv : Ordered.get? ms messageKey with
          | none =>
              left
              have hhas : Ordered.has ms messageKey = false := by rw [Ordered.has, hv]; rfl
              rw [Forest.leafAt_nil hforest]
              show (if Ordered.has ms messageKey then some ms else none) = _
              rw [hhas, if_neg Bool.false_ne_true]
          | some v =>
              right
              obtain ⟨w, hw⟩ := (hforest messageKey v hv).occupied
              refine ⟨w, ?_⟩
              rw [List.nil_append, leafAt_object, hv]
              exact hw
      | cons part rest =>
          simp only [List.cons_append, errorAt_object, leafAt_object]
          cases hv : Ordered.get? ms part with
          | none => exact .inl rfl
          | some v => exact ih part v hv rest

theorem Forest.read {ms : Members} (h : Forest ms) {q : List String} (hq : q ≠ []) :
    errorAt q (.object ms) = leafAt q (.object ms)
      ∨ ∃ w, leafAt (q ++ messageKey :: w) (.object ms) ≠ none := by
  obtain ⟨part, rest, rfl⟩ := List.exists_cons_of_ne_nil hq
  simp only [List.cons_append, errorAt_object, leafAt_object]
  cases hv : Ordered.get? ms part with
  | none => exact .inl rfl
  | some v => exact (h part v hv).read rest

/-- What stands somewhere is read there. -/
theorem errorAt_of_leafAt {q : List String} {v : Value} {e : Members}
    (h : leafAt q v = some e) : errorAt q v = some e := by
  induction q generalizing v with
  | nil =>
      cases v with
      | object ms =>
          obtain ⟨hsome, heq⟩ := Option.ite_none_right_eq_some.mp h
          have hhas : Ordered.has ms messageKey = true := by
            rw [Ordered.has]
            cases hv : Ordered.get? ms messageKey with
            | none => rw [hv] at hsome; cases hsome
            | some v => rfl
          exact (if_pos hhas).trans heq
      | null | bool _ | int _ | float _ | str _ | list _ => cases h
  | cons part rest ih =>
      obtain ⟨w, hw, hrest⟩ := Option.bind_eq_some_iff.mp h
      exact Option.bind_eq_some_iff.mpr ⟨w, hw, ih hrest⟩

/-! ## Paths that are in the way -/

/-- One path leads through the other. -/
def Crosses (p q : List String) : Prop := p <+: q ∨ q <+: p

/-- The path `q` marks an object that the path `p` leads to or through. -/
def Marks (q p : List String) : Prop :=
  ∃ u w, u ≠ [] ∧ q = u ++ messageKey :: w ∧ u <+: p

instance (p q : List String) : Decidable (Crosses p q) :=
  inferInstanceAs (Decidable (_ ∨ _))

/-- A mark is found at its position. -/
theorem marks_iff {q p : List String} :
    (∃ n, n < q.length ∧ n ≠ 0 ∧ q[n]? = some messageKey ∧ q.take n <+: p) ↔ Marks q p := by
  constructor
  · rintro ⟨n, hn, hpos, hget, hprefix⟩
    obtain ⟨_, hmark⟩ := List.getElem?_eq_some_iff.mp hget
    refine ⟨q.take n, q.drop (n + 1), ?_, ?_, hprefix⟩
    · intro hnil
      have := congrArg List.length hnil
      rw [List.length_take, List.length_nil] at this
      omega
    · rw [← hmark, List.getElem_cons_drop, List.take_append_drop]
  · rintro ⟨u, w, hu, rfl, hprefix⟩
    refine ⟨u.length, ?_, ?_, ?_, ?_⟩
    · rw [List.length_append, List.length_cons]
      omega
    · exact fun h => hu (List.length_eq_zero_iff.mp h)
    · rw [List.getElem?_append_right (Nat.le_refl _), Nat.sub_self]
      rfl
    · rw [List.take_left]
      exact hprefix

instance (q p : List String) : Decidable (Marks q p) := decidable_of_iff _ marks_iff

/-- No error stands in the way of a path. -/
def Free (ms : Members) (p : List String) : Prop :=
  ∀ q, q ≠ [] → Crosses p q ∨ Marks q p → leafAt q (.object ms) = none

theorem crosses_comm {p q : List String} : Crosses p q ↔ Crosses q p := Or.comm

theorem crosses_cons {part : String} {p q : List String} (h : Crosses p q) :
    Crosses (part :: p) (part :: q) :=
  h.imp (fun h => List.cons_prefix_cons.mpr ⟨rfl, h⟩) fun h => List.cons_prefix_cons.mpr ⟨rfl, h⟩

theorem crosses_nil (q : List String) : Crosses [] q := .inl List.nil_prefix

theorem marks_cons {part : String} {p q : List String} (h : Marks q p) :
    Marks (part :: q) (part :: p) := by
  obtain ⟨u, w, -, rfl, hu⟩ := h
  exact ⟨part :: u, w, List.cons_ne_nil _ _, rfl, List.cons_prefix_cons.mpr ⟨rfl, hu⟩⟩

/-- Paths that cross begin alike. -/
theorem crosses_cons_cases {part : String} {p q : List String} (hq : q ≠ [])
    (h : Crosses (part :: p) q) : ∃ rest, q = part :: rest ∧ Crosses p rest := by
  cases q with
  | nil => exact absurd rfl hq
  | cons first rest =>
      rcases h with h | h
      · obtain ⟨rfl, hrest⟩ := List.cons_prefix_cons.mp h
        exact ⟨rest, rfl, .inl hrest⟩
      · obtain ⟨rfl, hrest⟩ := List.cons_prefix_cons.mp h
        exact ⟨rest, rfl, .inr hrest⟩

/-- A path that marks an object on another begins as the other does. The object is the first one, or
one further down. -/
theorem marks_cons_cases {part : String} {p q : List String} (h : Marks q (part :: p)) :
    ∃ rest, q = part :: rest ∧ ((∃ w, rest = messageKey :: w) ∨ Marks rest p) := by
  obtain ⟨u, w, hu, rfl, hprefix⟩ := h
  obtain ⟨first, u, rfl⟩ := List.exists_cons_of_ne_nil hu
  obtain ⟨rfl, hrest⟩ := List.cons_prefix_cons.mp hprefix
  refine ⟨u ++ messageKey :: w, rfl, ?_⟩
  cases u with
  | nil => exact .inl ⟨w, rfl⟩
  | cons next u => exact .inr ⟨next :: u, w, List.cons_ne_nil _ _, rfl, hrest⟩

/-! ## Placing an error -/

/-- What stands below a part, nothing when there is no object. -/
def below (ms : Members) (part : String) : Members :=
  ((Ordered.get? ms part).bind Value.members?).getD []

theorem insert_cons (error : Value) (ms : Members) (part next : String) (rest : List String) :
    insert error ms (part :: next :: rest) =
      if Ordered.has (below ms part) messageKey then ms
      else Ordered.insert ms part (.object (insert error (below ms part) (next :: rest))) := rfl

theorem insert_singleton (error : Value) (ms : Members) (part : String) :
    insert error ms [part] = Ordered.insertNew ms part error := rfl

/-- **Where an error stands in the way the tree stays as it is.** -/
theorem insert_of_taken (i : Issue) {p q : List String} (hq : q ≠ [])
    (hway : Crosses p q ∨ Marks q p) {ms : Members} (hms : Forest ms)
    (hleaf : leafAt q (.object ms) ≠ none) : insert (entry i) ms p = ms := by
  induction p generalizing q ms with
  | nil => rfl
  | cons part rest ih =>
      obtain ⟨q, rfl, hbelow⟩ : ∃ q', q = part :: q'
          ∧ (Crosses rest q' ∨ (∃ w, q' = messageKey :: w) ∨ Marks q' rest) := by
        rcases hway with hcross | hmark
        · exact (crosses_cons_cases hq hcross).imp fun _ h => h.imp_right .inl
        · exact (marks_cons_cases hmark).imp fun _ h => h.imp_right .inr
      obtain ⟨v, hv, hleaf⟩ := exists_of_leafAt_cons hleaf
      cases rest with
      | nil =>
          have hhas : Ordered.has ms part = true := by rw [Ordered.has, hv]; rfl
          rw [insert_singleton, Ordered.insertNew, if_pos hhas]
      | cons next rest =>
          rw [insert_cons]
          split
          · rfl
          · rename_i hunmarked
            cases hms part v hv with
            | error j =>
                have hms' : below ms part = errorOf j := by rw [below, hv]; rfl
                exact absurd (hms' ▸ rfl) hunmarked
            | @branch ms' hsome hforest =>
                have hms' : below ms part = ms' := by rw [below, hv]; rfl
                have hne : q ≠ [] := by
                  rintro rfl
                  exact hleaf (Forest.leafAt_nil hforest)
                have hrest : Crosses (next :: rest) q ∨ Marks q (next :: rest) := by
                  rcases hbelow with hcross | ⟨w, rfl⟩ | hmark
                  · exact .inl hcross
                  · -- the object itself is marked then
                    obtain ⟨u, hu, -⟩ := exists_of_leafAt_cons hleaf
                    rw [hms', Ordered.has, hu] at hunmarked
                    exact absurd rfl hunmarked
                  · exact .inr hmark
                rw [hms', ih hne hrest hforest hleaf, insert_self hv]

/-- Only what is under the first part of a path changes. -/
theorem get?_insert_of_ne (error : Value) (ms : Members) {part other : String}
    (rest : List String) (h : other ≠ part) :
    Ordered.get? (insert error ms (part :: rest)) other = Ordered.get? ms other := by
  have hother : (other == part) = false := by simpa using h
  have hinsert (v : Value) : Ordered.get? (Ordered.insert ms part v) other =
      Ordered.get? ms other := by
    rw [Ordered.get?_insert, hother, if_neg Bool.false_ne_true]
  cases rest with
  | nil =>
      rw [insert_singleton, Ordered.insertNew]
      split
      · rfl
      · exact hinsert error
  | cons next rest =>
      rw [insert_cons]
      split
      · rfl
      · exact hinsert _

/-- What stands below the first part of a free path: a forest that is not marked, has the errors
that stand there, and is free for the rest of the path. -/
structure Room (ms : Members) (part : String) (rest : List String) : Prop where
  unmarked : Ordered.has (below ms part) messageKey = false
  forest : Forest (below ms part)
  leaves : ∀ q, leafAt q (.object (below ms part)) = leafAt (part :: q) (.object ms)
  free : Free (below ms part) rest

theorem Free.room {ms : Members} (hms : Forest ms) {part : String} {rest : List String}
    (hfree : Free ms (part :: rest)) : Room ms part rest := by
  have hway : ∀ q, Crosses rest q ∨ Marks q rest → leafAt (part :: q) (.object ms) = none :=
    fun q hq => hfree (part :: q) (List.cons_ne_nil _ _) (hq.imp crosses_cons marks_cons)
  suffices h : Ordered.has (below ms part) messageKey = false ∧ Forest (below ms part)
      ∧ ∀ q, leafAt q (.object (below ms part)) = leafAt (part :: q) (.object ms) by
    obtain ⟨hunmarked, hforest, hleaves⟩ := h
    exact ⟨hunmarked, hforest, hleaves, fun q _ hq => (hleaves q).trans (hway q hq)⟩
  cases hv : Ordered.get? ms part with
  | none =>
      have hbelow : below ms part = [] := by rw [below, hv]; rfl
      refine ⟨hbelow ▸ rfl, hbelow ▸ forest_nil, fun q => ?_⟩
      rw [hbelow, leafAt_object, hv]
      cases q <;> rfl
  | some v =>
      have hleaf (q : List String) : leafAt (part :: q) (.object ms) = leafAt q v := by
        rw [leafAt_object, hv, Option.bind_some]
      cases hms part v hv with
      | error j =>
          have hnone := hfree [part] (List.cons_ne_nil _ _)
            (.inl (crosses_comm.mp (crosses_cons (crosses_nil rest))))
          rw [hleaf, leafAt_entry, if_pos rfl] at hnone
          cases hnone
      | @branch ms' hsome hforest =>
          have hbelow : below ms part = ms' := by rw [below, hv]; rfl
          refine ⟨?_, hbelow ▸ hforest, fun q => by rw [hbelow, hleaf]⟩
          rw [hbelow, Ordered.has]
          cases hmark : Ordered.get? ms' messageKey with
          | none => rfl
          | some w =>
              -- an error under the mark would stand in the way
              obtain ⟨q, hq⟩ := (hforest messageKey w hmark).occupied
              have hnone := hfree (part :: messageKey :: q) (List.cons_ne_nil _ _)
                (.inr ⟨[part], q, List.cons_ne_nil _ _, rfl,
                  List.cons_prefix_cons.mpr ⟨rfl, List.nil_prefix⟩⟩)
              rw [hleaf, leafAt_object, hmark] at hnone
              exact absurd hnone hq

/-- A tree with one error more than what it replaces gives the whole one more. -/
theorem replace_under {i : Issue} {ms : Members} {part : String} {rest : List String} {v : Value}
    (hms : Forest ms) (htree : Tree v)
    (hleaf : ∀ q, leafAt q v =
      if q = rest then some (errorOf i) else leafAt (part :: q) (.object ms)) :
    Forest (Ordered.insert ms part v)
      ∧ ∀ q, q ≠ [] → leafAt q (.object (Ordered.insert ms part v)) =
          if q = part :: rest then some (errorOf i) else leafAt q (.object ms) := by
  refine ⟨fun other w hw => ?_, fun q hq => ?_⟩
  · rw [Ordered.get?_insert] at hw
    split at hw
    · cases hw; exact htree
    · exact hms other w hw
  · obtain ⟨first, q, rfl⟩ := List.exists_cons_of_ne_nil hq
    rw [leafAt_object, Ordered.get?_insert]
    by_cases hfirst : first = part
    · subst hfirst
      rw [beq_self_eq_true, if_pos rfl, Option.bind_some, hleaf]
      simp only [List.cons.injEq, true_and]
    · have hbeq : (first == part) = false := by simpa using hfirst
      rw [hbeq, if_neg Bool.false_ne_true, if_neg fun heq => hfirst (List.cons.inj heq).1]
      rfl

/-- A forest with an error in it is a tree. -/
theorem Forest.tree {ms : Members} (h : Forest ms) {q : List String} (hq : q ≠ [])
    (hleaf : leafAt q (.object ms) ≠ none) : Tree (.object ms) := by
  obtain ⟨part, q, rfl⟩ := List.exists_cons_of_ne_nil hq
  obtain ⟨v, hv, -⟩ := exists_of_leafAt_cons hleaf
  exact .branch ⟨part, v, hv⟩ h

/-- **Where a path is free the error is placed**: it stands at the path, and all else as before. What
was a forest stays one. -/
theorem insert_of_free (i : Issue) {p : List String} (hp : p ≠ []) {ms : Members}
    (hms : Forest ms) (hfree : Free ms p) :
    Forest (insert (entry i) ms p)
      ∧ ∀ q, q ≠ [] → leafAt q (.object (insert (entry i) ms p)) =
          if q = p then some (errorOf i) else leafAt q (.object ms) := by
  induction p generalizing ms with
  | nil => exact absurd rfl hp
  | cons part rest ih =>
      cases rest with
      | nil =>
          have hnone : Ordered.get? ms part = none := by
            cases hv : Ordered.get? ms part with
            | none => rfl
            | some v =>
                obtain ⟨q, hq⟩ := (hms part v hv).occupied
                have hfalse := hfree (part :: q) (List.cons_ne_nil _ _)
                  (.inl (crosses_cons (crosses_nil q)))
                rw [leafAt_object, hv] at hfalse
                exact absurd hfalse hq
          have hhas : Ordered.has ms part = false := by rw [Ordered.has, hnone]; rfl
          rw [insert_singleton, Ordered.insertNew, hhas, if_neg Bool.false_ne_true]
          refine replace_under hms (.error i) fun q => ?_
          rw [leafAt_entry, leafAt_object, hnone]
          rfl
      | cons next rest =>
          have hroom := hfree.room hms
          obtain ⟨hforest, hleaf⟩ := ih (List.cons_ne_nil _ _) hroom.forest hroom.free
          have htree : Tree (.object (insert (entry i) (below ms part) (next :: rest))) := by
            refine hforest.tree (List.cons_ne_nil next rest) ?_
            rw [hleaf _ (List.cons_ne_nil _ _), if_pos rfl]
            exact Option.some_ne_none _
          rw [insert_cons, hroom.unmarked, if_neg Bool.false_ne_true]
          refine replace_under hms htree fun q => ?_
          rw [← hroom.leaves]
          by_cases hq : q = []
          · subst hq
            rw [hforest.leafAt_nil, if_neg (List.cons_ne_nil _ _).symm, hroom.forest.leafAt_nil]
          · exact hleaf q hq

/-! ## Looking up -/

theorem errorAt_str (q : List String) (s : String) : errorAt q (.str s) = none := by
  cases q <;> rfl

theorem walk_str (s : String) (q : List String) :
    ((Value.str s).walk q).map (fun v => v.bind asError?) = .ok none := by
  cases q <;> rfl

theorem walk_object (ms : Members) (part : String) (rest : List String) :
    (Value.object ms).walk (part :: rest) =
      match Ordered.get? ms part with
      | some v => v.walk rest
      | none => .ok none := by
  rw [Value.walk]
  rfl

/-- A walk through a tree reads the error. -/
theorem Tree.walk {v : Value} (h : Tree v) (q : List String) :
    (v.walk q).map (fun w => w.bind asError?) = .ok (errorAt q v) := by
  induction h generalizing q with
  | error i =>
      cases q with
      | nil => rfl
      | cons part rest =>
          rw [entry, walk_object, errorAt_object, Ordered.get?_cons, Ordered.get?_cons]
          cases part == messageKey with
          | true => exact (walk_str _ _).trans (congrArg _ (errorAt_str _ _).symm)
          | false =>
              cases part == "type" with
              | true => exact (walk_str _ _).trans (congrArg _ (errorAt_str _ _).symm)
              | false => rfl
  | @branch ms _ _ ih =>
      cases q with
      | nil => rfl
      | cons part rest =>
          rw [walk_object, errorAt_object]
          cases hv : Ordered.get? ms part with
          | none => rfl
          | some v => exact ih part v hv rest

/-- **In a forest a path looks up what is read at its parts**, when the keys of the forest are parts
themselves. -/
theorem lookup_forest {ms : Members} (hms : Forest ms)
    (hkeys : ∀ part v, Ordered.get? ms part = some v → pathParts part = [part]) {p : String}
    (hp : p ≠ "") : lookup (.object ms) p = .ok (errorAt (pathParts p) (.object ms)) := by
  have hempty : (p == "") = false := by simpa using hp
  have hwalk : ((Value.object ms).walk (pathParts p)).map (fun v => v.bind asError?) =
      .ok (errorAt (pathParts p) (.object ms)) := by
    obtain ⟨part, rest, hparts⟩ := List.exists_cons_of_ne_nil (pathParts_ne_nil p)
    rw [hparts, walk_object, errorAt_object]
    cases hv : Ordered.get? ms part with
    | none => rfl
    | some v => exact (hms part v hv).walk rest
  rw [lookup, hempty, if_neg Bool.false_ne_true]
  split
  · -- the path is a key, so it is its only part
    rename_i e hflat
    obtain ⟨v, hv, he⟩ := Option.bind_eq_some_iff.mp hflat
    rw [hkeys p v hv, errorAt_object]
    have hget : Ordered.get? ms p = some v := hv
    rw [hget]
    exact congrArg _ he.symm
  · exact hwalk

end Formwork.Proofs
