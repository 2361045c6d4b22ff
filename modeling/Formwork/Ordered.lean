/-!
# Ordered maps

A map from texts that remembers the order in which its keys were first inserted. It is a list of
pairs; writing to a key that is present keeps the key's place.
-/

namespace Formwork

/-- A map from texts in insertion order. -/
abbrev Ordered (α : Type _) := List (String × α)

namespace Ordered

variable {α β : Type _}

/-- The value under a key. -/
def get? (m : Ordered α) (key : String) : Option α := m.lookup key

/-- Whether a key is present. -/
def has (m : Ordered α) (key : String) : Bool := (get? m key).isSome

/-- Writes a key: in its place when it is present, at the end otherwise. -/
def insert (m : Ordered α) (key : String) (value : α) : Ordered α :=
  match m with
  | [] => [(key, value)]
  | (k, v) :: rest => if k == key then (k, value) :: rest else (k, v) :: insert rest key value

/-- Removes a key. -/
def erase (m : Ordered α) (key : String) : Ordered α := m.filter (·.1 != key)

/-- The keys in insertion order. -/
def keys (m : Ordered α) : List String := m.map (·.1)

/-- The values in the order of their keys. -/
def values (m : Ordered α) : List α := m.map (·.2)

/-- Writes the entries one after another. -/
def insertAll (m : Ordered α) (entries : List (String × α)) : Ordered α :=
  entries.foldl (fun m (k, v) => insert m k v) m

/-- The map that a list of entries writes: a key that comes again has the last value. -/
def ofList (entries : List (String × α)) : Ordered α := insertAll [] entries

/-- Writes a key only when it is absent. -/
def insertNew (m : Ordered α) (key : String) (value : α) : Ordered α :=
  if has m key then m else insert m key value

/-- Appends an item to the list under a key, starting it when the key is absent. -/
def push (m : Ordered (List β)) (key : String) (item : β) : Ordered (List β) :=
  insert m key (((get? m key).getD []) ++ [item])

@[simp] theorem get?_nil (key : String) : get? ([] : Ordered α) key = none := rfl

theorem get?_cons (k : String) (v : α) (m : Ordered α) (key : String) :
    get? ((k, v) :: m) key = if key == k then some v else get? m key := by
  show (match key == k with | true => some v | false => m.lookup key) = _
  cases key == k <;> rfl

/-- A write is seen at its own key and nowhere else. -/
@[simp] theorem get?_insert (m : Ordered α) (key : String) (value : α) (other : String) :
    get? (insert m key value) other = if other == key then some value else get? m other := by
  induction m with
  | nil => simp [insert, get?_cons]
  | cons entry rest ih =>
    obtain ⟨k, v⟩ := entry
    simp only [insert]
    by_cases hk : k = key
    · subst hk
      simp only [beq_self_eq_true, if_true, get?_cons]
      by_cases ho : other = k <;> simp [ho]
    · simp only [beq_iff_eq, hk, if_false, get?_cons, ih]
      by_cases ho : other = k
      · subst ho; simp [hk]
      · simp [ho]

/-- A removed key is absent and the other keys are as they were. -/
@[simp] theorem get?_erase (m : Ordered α) (key other : String) :
    get? (erase m key) other = if other == key then none else get? m other := by
  induction m with
  | nil => simp [erase]
  | cons entry rest ih =>
    obtain ⟨k, v⟩ := entry
    simp only [erase] at ih ⊢
    by_cases hk : k = key
    · subst hk
      simp only [List.filter_cons, bne_self_eq_false, Bool.false_eq_true, if_false, ih, get?_cons]
      by_cases ho : other = k <;> simp [ho]
    · have hkey : (k != key) = true := by simp [hk]
      simp only [List.filter_cons, hkey, if_true, get?_cons, ih]
      by_cases ho : other = k
      · subst ho; simp [hk]
      · simp [ho]

end Ordered

end Formwork
