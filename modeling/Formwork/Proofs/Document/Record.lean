import Formwork.Document.FormReader
import Formwork.Document.Writer
import Formwork.Proofs.Answer

/-!
# Records, field by field

A record reader is put together from one reader for each field, and so is what is said
about it. `Ensures` is about what it can read at all: a condition on each field gives one
on the record. `Fits` is about what is written: from the members of a record, one for each
field and in their order, the reader takes the parts, and leaves no key unused.

A field with several spellings is written under one of them. The others are names that no
member has, which is all that has to be checked of a record as a whole (`Fits.readsBack`).
-/

namespace Formwork.Proofs

open Formwork RecordReader

variable {α β : Type}

/-! ## Readings -/

theorem within_eq_ok {step : PathStep} {r : Reading α} {a : α} :
    r.within step = .ok a ↔ r = .ok a := by
  cases r with
  | ok _ => exact Iff.rfl
  | error _ => exact ⟨nofun, nofun⟩

theorem both_eq_ok {x : Reading α} {y : Reading β} {a : α} {b : β} :
    Reading.both x y = .ok (a, b) ↔ x = .ok a ∧ y = .ok b := by
  cases x <;> cases y <;> simp [Reading.both]

theorem all_cons_eq_ok {r : Reading α} {rs : List (Reading α)} {out : List α} :
    Reading.all (r :: rs) = .ok out ↔
      ∃ a as, r = .ok a ∧ Reading.all rs = .ok as ∧ out = a :: as := by
  rw [Reading.all, map_eq_ok]
  constructor
  · rintro ⟨⟨a, as⟩, hboth, rfl⟩
    obtain ⟨hr, hrs⟩ := both_eq_ok.mp hboth
    exact ⟨a, as, hr, hrs, rfl⟩
  · rintro ⟨a, as, hr, hrs, rfl⟩
    exact ⟨(a, as), both_eq_ok.mpr ⟨hr, hrs⟩, rfl⟩

/-- All readings answer when each does. -/
theorem all_map_eq_ok {γ : Type} {g : γ → Reading α} {f : γ → α} {xs : List γ}
    (h : ∀ x ∈ xs, g x = .ok (f x)) : Reading.all (xs.map g) = .ok (xs.map f) := by
  induction xs with
  | nil => rfl
  | cons x xs ih =>
      rw [List.map_cons, all_cons_eq_ok]
      exact ⟨_, _, h x (List.mem_cons_self ..), ih fun y hy => h y (List.mem_cons_of_mem _ hy), rfl⟩

/-- What all readings answer was answered by one of them. -/
theorem mem_of_all {rs : List (Reading α)} {out : List α} (h : Reading.all rs = .ok out) {a : α}
    (ha : a ∈ out) : .ok a ∈ rs := by
  induction rs generalizing out with
  | nil => cases h; exact absurd ha List.not_mem_nil
  | cons r rs ih =>
      obtain ⟨b, bs, rfl, hrs, rfl⟩ := all_cons_eq_ok.mp h
      rcases List.mem_cons.mp ha with rfl | ha
      · exact List.mem_cons_self ..
      · exact List.mem_cons_of_mem _ (ih hrs ha)

/-! ## What a record reader ensures -/

/-- Whatever is read has a property. -/
def Yields (read : Datum → Reading α) (P : α → Prop) : Prop := ∀ d a, read d = .ok a → P a

/-- Whatever a record reader takes from entries has a property. -/
def Ensures (r : RecordReader α) (P : α → Prop) : Prop := ∀ entries a, (r entries).2 = .ok a → P a

theorem yields_list {read : Datum → Reading α} {P : α → Prop} (h : Yields read P) :
    Yields (Datum.readList read) fun out => ∀ a ∈ out, P a := by
  intro d out hout a ha
  cases d with
  | sequence items =>
      obtain ⟨i, hi, heq⟩ := List.mem_mapIdx.mp (mem_of_all hout ha)
      exact h _ a (within_eq_ok.mp heq)
  | _ => cases hout

theorem yields_name : Yields Datum.readName (· ≠ "") := by
  intro d s hs
  cases d with
  | text t =>
      rw [Datum.readName] at hs
      split at hs
      · cases hs
      · rename_i hne
        cases hs
        simpa using hne
  | _ => cases hs

theorem yields_optional {read : Datum → Reading α} {P : α → Prop} (h : Yields read P) :
    Yields (Datum.readOptional read) fun x => ∀ a, x = some a → P a := by
  intro d x hx a ha
  subst ha
  cases d with
  | null => cases hx
  | _ =>
      obtain ⟨a', hread, heq⟩ := map_eq_ok.mp hx
      cases heq
      exact h _ _ hread

section Ensures

variable {names : List String} {read : Datum → Reading α} {P : α → Prop}

theorem ensures_const {a : α} (h : P a) : Ensures (const a) P := by
  intro entries a' ha
  cases ha
  exact h

/-- A condition on the next field is added to those on the fields before it. -/
theorem Ensures.field {r : RecordReader (α → β)} {x : RecordReader α} {Q : β → Prop}
    (hr : Ensures r fun g => ∀ a, P a → Q (g a)) (hx : Ensures x P) : Ensures (r.field x) Q := by
  intro entries b hb
  obtain ⟨⟨g, a⟩, hboth, rfl⟩ := map_eq_ok.mp hb
  obtain ⟨hg, ha⟩ := both_eq_ok.mp hboth
  exact hr entries g hg a (hx entries a ha)

theorem ensures_spelled {absent : Reading α} (h : Yields read P)
    (habsent : ∀ a, absent = .ok a → P a) : Ensures (spelled names read absent) P := by
  intro entries a ha
  rw [spelled] at ha
  split at ha
  · exact h _ a (within_eq_ok.mp ha)
  · exact habsent a ha

theorem ensures_required (h : Yields read P) : Ensures (required names read) P :=
  ensures_spelled h nofun

theorem ensures_withDefault {default : α} (h : Yields read P) (hdefault : P default) :
    Ensures (withDefault names read default) P :=
  ensures_spelled h fun a ha => by cases ha; exact hdefault

theorem ensures_optional (h : Yields read P) :
    Ensures (RecordReader.optional names read) fun x => ∀ a, x = some a → P a :=
  ensures_withDefault (yields_optional h) nofun

/-- A field on which nothing is asked. -/
theorem ensures_any (x : RecordReader α) : Ensures x fun _ => True := fun _ _ _ => trivial

/-- A record that is read has what its fields ensure, and keeps its law. -/
theorem Ensures.yields {r : RecordReader α} {model : String} {strict : Bool}
    {law : α → Option DocumentLaw} (h : Ensures r P) :
    Yields (r.read model strict law) fun a => P a ∧ law a = none := by
  intro d a ha
  cases d with
  | mapping entries =>
      simp only [RecordReader.read] at ha
      -- which keys are left over does not matter, only whether there are any
      generalize (if strict then entries.filterMap fun x => extraFault? (r entries).1 x.1
        else []) = extras at ha
      cases hb : (r entries).2 with
      | error faults => rw [hb] at ha; cases ha
      | ok b =>
          rw [hb] at ha
          cases hlaw : law b with
          | some broken =>
              simp only [hlaw] at ha
              split at ha <;> cases ha
          | none =>
              simp only [hlaw] at ha
              split at ha
              · cases ha
                exact ⟨h entries _ hb, hlaw⟩
              · cases ha
  | _ => cases ha

end Ensures

/-! ## What is written -/

/-- The members that are there. -/
def presentMembers (ms : List (String × Option Value)) : Members :=
  ms.filterMap fun (k, v?) => v?.map fun v => (k, v)

theorem presentMembers_none (k : String) (ms : List (String × Option Value)) :
    presentMembers ((k, none) :: ms) = presentMembers ms := rfl

theorem presentMembers_some (k : String) (v : Value) (ms : List (String × Option Value)) :
    presentMembers ((k, some v) :: ms) = (k, v) :: presentMembers ms := rfl

theorem present_eq (ms : List (String × Option Value)) :
    present ms = .object (presentMembers ms) := rfl

theorem ofValue_object (ms : Members) :
    Datum.ofValue (.object ms) = .mapping (Datum.ofMembers ms) := by
  rw [Datum.ofValue]

theorem ofMembers_eq_map (ms : Members) :
    Datum.ofMembers ms = ms.map fun (k, v) => (Datum.text k, Datum.ofValue v) := by
  induction ms with
  | nil => rw [Datum.ofMembers]; rfl
  | cons m ms ih => rw [Datum.ofMembers, ih]; rfl

theorem ofItems_eq_map (items : List Value) : Datum.ofItems items = items.map Datum.ofValue := by
  induction items with
  | nil => rw [Datum.ofItems]; rfl
  | cons x xs ih => rw [Datum.ofItems, ih]; rfl

theorem lookup?_cons (k : String) (d : Datum) (entries : List (Datum × Datum)) (key : String) :
    Datum.lookup? ((.text k, d) :: entries) key =
      if k = key then some d else Datum.lookup? entries key := by
  unfold Datum.lookup?
  rw [List.findSome?_cons]
  by_cases hk : k = key
  · simp [hk]
  · simp [hk]

/-- A name that no member has is not found. -/
theorem lookup?_absent {ms : List (String × Option Value)} {key : String}
    (h : key ∉ ms.map Prod.fst) :
    Datum.lookup? (Datum.ofMembers (presentMembers ms)) key = none := by
  induction ms with
  | nil => rw [presentMembers, List.filterMap_nil, Datum.ofMembers]; rfl
  | cons m ms ih =>
      obtain ⟨k, v?⟩ := m
      have hne : k ≠ key := fun heq => h (by simp [heq])
      have hrest := ih fun hmem => h (List.mem_cons_of_mem _ hmem)
      cases v? with
      | none => rw [presentMembers_none, hrest]
      | some v => rw [presentMembers_some, Datum.ofMembers, lookup?_cons, if_neg hne, hrest]

/-- Among members with distinct names each is found under its name, if it is there. -/
theorem lookup?_member {ms : List (String × Option Value)} (hnd : (ms.map Prod.fst).Nodup)
    {key : String} {v? : Option Value} (h : (key, v?) ∈ ms) :
    Datum.lookup? (Datum.ofMembers (presentMembers ms)) key = v?.map Datum.ofValue := by
  induction ms with
  | nil => exact absurd h List.not_mem_nil
  | cons m ms ih =>
      obtain ⟨k, w?⟩ := m
      obtain ⟨hnew, hrest⟩ := List.nodup_cons.mp hnd
      rcases List.mem_cons.mp h with heq | hmem
      · cases heq
        cases v? with
        | none =>
            rw [presentMembers_none]
            exact lookup?_absent hnew
        | some v =>
            rw [presentMembers_some, Datum.ofMembers, lookup?_cons, if_pos rfl]
            rfl
      · have hne : k ≠ key := fun heq => hnew (List.mem_map.mpr ⟨(key, v?), hmem, heq.symm⟩)
        cases w? with
        | none => rw [presentMembers_none, ih hrest hmem]
        | some w =>
            rw [presentMembers_some, Datum.ofMembers, lookup?_cons, if_neg hne, ih hrest hmem]

/-- What is written is no null, and `a` is read from it. -/
structure ReadsBack (read : Datum → Reading α) (v : Value) (a : α) : Prop where
  notNull : Datum.ofValue v ≠ .null
  reads : read (Datum.ofValue v) = .ok a

/-- A list is read back item by item. -/
theorem readsBack_list {γ : Type} {read : Datum → Reading α} {write : γ → Value} {f : γ → α}
    {xs : List γ} (h : ∀ x ∈ xs, ReadsBack read (write x) (f x)) :
    ReadsBack (Datum.readList read) (.list (xs.map write)) (xs.map f) := by
  have hitems : Datum.ofValue (.list (xs.map write)) =
      .sequence ((xs.map write).map Datum.ofValue) := by
    rw [Datum.ofValue, ofItems_eq_map]
  refine ⟨by rw [hitems]; nofun, ?_⟩
  rw [hitems, Datum.readList, ← all_map_eq_ok (g := fun x => .ok (f x)) fun _ _ => rfl]
  congr 1
  refine List.ext_getElem (by simp) fun i h1 h2 => ?_
  have hi : i < xs.length := by simpa using h2
  simp only [List.getElem_mapIdx, List.getElem_map]
  exact within_eq_ok.mpr (h _ (List.getElem_mem hi)).reads

/-- From entries that have these members, one for each key with its spellings, and nothing under
another spelling of a key, the reader takes `a`. It uses the keys of the members that are there. -/
structure Fits (r : RecordReader α) (ms : List (String × Option Value))
    (spelled : List (String × List String)) (a : α) : Prop where
  keys : ms.map Prod.fst = spelled.map Prod.fst
  takes : ∀ entries, (∀ m ∈ ms, Datum.lookup? entries m.1 = m.2.map Datum.ofValue) →
    (∀ s ∈ spelled, ∀ n ∈ s.2.erase s.1, Datum.lookup? entries n = none) →
    r entries = ((presentMembers ms).map Prod.fst, .ok a)

theorem fits_const (a : α) : Fits (const a) [] [] a := ⟨rfl, fun _ _ _ => rfl⟩

theorem Fits.field {r : RecordReader (α → β)} {x : RecordReader α}
    {ms ms' : List (String × Option Value)} {spelled spelled' : List (String × List String)}
    {g : α → β} {a : α} (hr : Fits r ms spelled g) (hx : Fits x ms' spelled' a) :
    Fits (r.field x) (ms ++ ms') (spelled ++ spelled') (g a) := by
  refine ⟨by rw [List.map_append, List.map_append, hr.keys, hx.keys], fun entries hms hothers => ?_⟩
  have h1 := hr.takes entries (fun m hm => hms m (List.mem_append_left _ hm))
    fun s hs => hothers s (List.mem_append_left _ hs)
  have h2 := hx.takes entries (fun m hm => hms m (List.mem_append_right _ hm))
    fun s hs => hothers s (List.mem_append_right _ hs)
  have happ : presentMembers (ms ++ ms') = presentMembers ms ++ presentMembers ms' :=
    List.filterMap_append
  rw [RecordReader.field, h1, h2, happ, List.map_append]
  rfl

section Fits

variable {names : List String} {key : String} {read : Datum → Reading α} {a : α}

/-- Of several spellings only the one that is written can be present. -/
theorem findSome?_spelling {entries : List (Datum × Datum)} (hkey : key ∈ names)
    (h : ∀ n ∈ names.erase key, Datum.lookup? entries n = none) :
    (names.findSome? fun n => (Datum.lookup? entries n).map fun d => (n, d)) =
      (Datum.lookup? entries key).map fun d => (key, d) := by
  induction names with
  | nil => exact absurd hkey List.not_mem_nil
  | cons n names ih =>
      rw [List.findSome?_cons]
      by_cases hn : n = key
      · subst hn
        rw [List.erase_cons_head] at h
        cases hfound : Datum.lookup? entries n with
        | some d => rfl
        | none =>
            rw [Option.map_none]
            refine List.findSome?_eq_none_iff.mpr fun n' hn' => ?_
            rw [h n' hn', Option.map_none]
      · rw [List.erase_cons_tail (by simpa using hn)] at h
        rw [h n (List.mem_cons_self ..), Option.map_none]
        rcases List.mem_cons.mp hkey with heq | hkey
        · exact absurd heq.symm hn
        · exact ih hkey fun n' hn' => h n' (List.mem_cons_of_mem _ hn')

theorem fits_spelled_some {absent : Reading α} {v : Value} (hkey : key ∈ names)
    (h : read (Datum.ofValue v) = .ok a) :
    Fits (spelled names read absent) [(key, some v)] [(key, names)] a := by
  refine ⟨rfl, fun entries hms hothers => ?_⟩
  have hfound : Datum.lookup? entries key = some (Datum.ofValue v) :=
    hms _ (List.mem_singleton.mpr rfl)
  rw [spelled, findSome?_spelling hkey (hothers _ (List.mem_singleton.mpr rfl)), hfound]
  show ([key], (read (Datum.ofValue v)).within (.key key)) = _
  rw [within_eq_ok.mpr h]
  rfl

theorem fits_spelled_none {absent : Reading α} (hkey : key ∈ names) (h : absent = .ok a) :
    Fits (spelled names read absent) [(key, none)] [(key, names)] a := by
  refine ⟨rfl, fun entries hms hothers => ?_⟩
  have hfound : Datum.lookup? entries key = none := hms _ (List.mem_singleton.mpr rfl)
  rw [spelled, findSome?_spelling hkey (hothers _ (List.mem_singleton.mpr rfl)), hfound, h]
  rfl

theorem fits_required {v : Value} (hkey : key ∈ names) (h : ReadsBack read v a) :
    Fits (required names read) [(key, some v)] [(key, names)] a :=
  fits_spelled_some hkey h.reads

theorem fits_withDefault (default : α) {v : Value} (hkey : key ∈ names) (h : ReadsBack read v a) :
    Fits (withDefault names read default) [(key, some v)] [(key, names)] a :=
  fits_spelled_some hkey h.reads

/-- A part that may be missing is read back when it is read back where it is there. -/
theorem fits_optional {γ : Type} {write : γ → Value} {f : γ → α} {x : Option γ}
    (hkey : key ∈ names) (h : ∀ c, x = some c → ReadsBack read (write c) (f c)) :
    Fits (RecordReader.optional names read) [(key, x.map write)] [(key, names)] (x.map f) := by
  cases x with
  | none => exact fits_spelled_none hkey rfl
  | some c =>
      obtain ⟨hnull, hread⟩ := h c rfl
      refine fits_spelled_some hkey ?_
      unfold Datum.readOptional
      split
      · rename_i heq
        exact absurd heq hnull
      · rw [hread]
        rfl

/-- A part that is read back as it was, if it is there. -/
theorem fits_optional_same {write : α → Value} {x : Option α} (hkey : key ∈ names)
    (h : ∀ c, x = some c → ReadsBack read (write c) c) :
    Fits (RecordReader.optional names read) [(key, x.map write)] [(key, names)] x := by
  have := fits_optional (f := id) hkey h
  rwa [Option.map_id] at this

end Fits

/-- Keys are distinct, and no other spelling of a key is one of them. -/
def apart (spelled : List (String × List String)) : Bool :=
  decide (spelled.map Prod.fst).Nodup &&
    spelled.all fun s => (s.2.erase s.1).all fun n => !(spelled.map Prod.fst).contains n

/-- **A record is read back from what is written**, when its keys are distinct and no other spelling
is one of them. -/
theorem Fits.readsBack {r : RecordReader α} {ms : List (String × Option Value)}
    {spelled : List (String × List String)} {a : α} (h : Fits r ms spelled a)
    (hapart : apart spelled = true) (model : String) (strict : Bool)
    {law : α → Option DocumentLaw} (hlaw : law a = none) :
    ReadsBack (r.read model strict law) (present ms) a := by
  obtain ⟨hnd, hothers⟩ := Bool.and_eq_true_iff.mp hapart
  have hnd : (ms.map Prod.fst).Nodup := h.keys ▸ of_decide_eq_true hnd
  have habsent : ∀ s ∈ spelled, ∀ n ∈ s.2.erase s.1, n ∉ ms.map Prod.fst := by
    intro s hs n hn
    rw [h.keys]
    simpa using List.all_eq_true.mp (List.all_eq_true.mp hothers s hs) n hn
  have hr := h.takes (Datum.ofMembers (presentMembers ms)) (fun m hm => lookup?_member hnd hm)
    fun s hs n hn => lookup?_absent (habsent s hs n hn)
  have hused : ((Datum.ofMembers (presentMembers ms)).filterMap fun x =>
      extraFault? ((presentMembers ms).map Prod.fst) x.1) = [] := by
    rw [List.filterMap_eq_nil_iff, ofMembers_eq_map]
    intro entry hentry
    obtain ⟨m, hm, rfl⟩ := List.mem_map.mp hentry
    have hin : m.1 ∈ (presentMembers ms).map Prod.fst := List.mem_map_of_mem hm
    simp only [extraFault?, List.contains_eq_mem, decide_eq_true hin, if_true]
  rw [present_eq]
  refine ⟨by rw [ofValue_object]; nofun, ?_⟩
  rw [ofValue_object, RecordReader.read, hr]
  dsimp only
  rw [hused, ite_self, hlaw]
  rfl

end Formwork.Proofs
