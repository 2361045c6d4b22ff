import Formwork.Proofs.Document.Loading

/-!
# What registries hold

A load takes the documents of its directories one after another, in the order of their paths.
What it comes to can be said without the loop (`LoadsBy`): under an id there is what was there
before or else the first document with it, or, when documents are overwritten, the last one or
else what was there before. Each new document has the directory that it came from as its source.

Whatever is done to a registry, loads that are stopped included, its two maps stay in step: an id is
recorded once in each, and a source belongs to an id with a document (`InStep`). A sub-form is
recorded under its own id. All that changes a registry is that a new document is stored or one is
taken out (`loadFiles_keeps`).
-/

namespace Formwork.Proofs

open Formwork

/-! ## The order of documents -/

section Order

theorem precedes_trans {a b c : List String} (hab : FileTree.precedes a b = true)
    (hbc : FileTree.precedes b c = true) : FileTree.precedes a c = true := by
  induction a generalizing b c with
  | nil => rfl
  | cons x xs ih =>
      cases b with
      | nil => cases hab
      | cons y ys =>
          cases c with
          | nil => cases hbc
          | cons z zs =>
              simp only [FileTree.precedes, Bool.or_eq_true, decide_eq_true_eq, Bool.and_eq_true,
                beq_iff_eq] at hab hbc ⊢
              rcases hab with hlt | ⟨rfl, hab⟩
              · rcases hbc with hlt' | ⟨rfl, -⟩
                · exact .inl (String.lt_trans hlt hlt')
                · exact .inl hlt
              · exact hbc.imp_right fun h => ⟨h.1, ih hab h.2⟩

theorem precedes_total (a b : List String) :
    (FileTree.precedes a b || FileTree.precedes b a) = true := by
  induction a generalizing b with
  | nil => rfl
  | cons x xs ih =>
      cases b with
      | nil => rfl
      | cons y ys =>
          simp only [FileTree.precedes, Bool.or_eq_true, decide_eq_true_eq, Bool.and_eq_true,
            beq_iff_eq] at ih ⊢
          by_cases hxy : x < y
          · exact .inl (.inl hxy)
          · by_cases hyx : y < x
            · exact .inr (.inl hyx)
            · obtain rfl := String.le_antisymm (String.not_lt.mp hyx) (String.not_lt.mp hxy)
              exact (ih ys).imp (fun h => .inr ⟨rfl, h⟩) fun h => .inr ⟨rfl, h⟩

/-- The way to a directory makes no difference between what lies below it. -/
theorem precedes_append (way a b : List String) :
    FileTree.precedes (way ++ a) (way ++ b) = FileTree.precedes a b := by
  induction way with
  | nil => rfl
  | cons x xs ih => simp [FileTree.precedes, ih]

/-- **The documents below a directory are in the order of their paths.** -/
theorem documents_sorted (t : FileTree) (directory : Formwork.Path) :
    (t.documents directory).Pairwise fun p q => FileTree.precedes p.names q.names = true := by
  unfold FileTree.documents
  cases t.locate directory with
  | none => exact .nil
  | some p =>
      refine List.pairwise_map.mpr ?_
      refine (List.pairwise_mergeSort (fun a b c => @precedes_trans a b c) precedes_total _).imp ?_
      intro a b hab
      rw [Formwork.Path.append, Formwork.Path.append, precedes_append, hab]

end Order

/-! ## What a load comes to -/

section Loads

variable {α : Type}

/-- A registry after one more document under a policy. -/
def settleDocument (policy : DuplicatePolicy) (r : Registry α) (entry : String × RegistryEntry α) :
    Registry α :=
  if r.has entry.1 then
    match policy with
    | .overwrite => (r.remove entry.1).store entry.1 entry.2.document entry.2.source
    | .skip | .refuse => r
  else r.store entry.1 entry.2.document entry.2.source

/-- The entries after one more document under a policy. -/
def settleEntry (policy : DuplicatePolicy) (m : Ordered (RegistryEntry α))
    (entry : String × RegistryEntry α) : Ordered (RegistryEntry α) :=
  match policy with
  | .overwrite => Ordered.insert (Ordered.erase m entry.1) entry.1 entry.2
  | .skip | .refuse => Ordered.insertNew m entry.1 entry.2

/-- What a load of offered files makes of a registry. -/
structure LoadsBy (kind : RegistryKind α) (t : FileTree) (policy : DuplicatePolicy)
    (offers : List Offer) (r r' : Registry α) : Prop where
  /-- What is there stays, and else the first document counts. -/
  skip : policy = .skip → ∀ id, Ordered.get? r'.entries id =
    (Ordered.get? r.entries id).or (Ordered.get? (validEntries kind t offers) id)
  /-- The last document counts, and else what is there stays. -/
  overwrite : policy = .overwrite → ∀ id, Ordered.get? r'.entries id =
    (Ordered.get? (validEntries kind t offers).reverse id).or (Ordered.get? r.entries id)
  /-- Under other ids nothing changes. -/
  untouched : ∀ id, id ∉ Ordered.keys (validEntries kind t offers) →
    Ordered.get? r'.entries id = Ordered.get? r.entries id
  /-- A new document is the one of an offered file, and has the directory of the offer. -/
  source : ∀ id e, Ordered.get? r'.entries id = some e → Ordered.get? r.entries id = some e
    ∨ ∃ o ∈ offers, o.taken? kind t = some (id, e) ∧ e.source = some o.source

theorem get?_settled_skip (m docs : Ordered (RegistryEntry α)) (id : String) :
    Ordered.get? (docs.foldl (settleEntry .skip) m) id =
      (Ordered.get? m id).or (Ordered.get? docs id) := by
  induction docs generalizing m with
  | nil => simp
  | cons entry rest ih =>
      obtain ⟨k, e⟩ := entry
      rw [List.foldl_cons, ih, Ordered.get?_cons]
      show (Ordered.get? (Ordered.insertNew m k e) id).or _ = _
      unfold Ordered.insertNew
      by_cases hid : id = k
      · subst hid
        cases hm : Ordered.get? m id <;> simp [Ordered.has, hm]
      · by_cases hk : Ordered.has m k = true <;> simp [hid, hk]

theorem get?_settled_overwrite (m docs : Ordered (RegistryEntry α)) (id : String) :
    Ordered.get? (docs.foldl (settleEntry .overwrite) m) id =
      (Ordered.get? docs.reverse id).or (Ordered.get? m id) := by
  induction docs generalizing m with
  | nil => simp
  | cons entry rest ih =>
      obtain ⟨k, e⟩ := entry
      rw [List.foldl_cons, ih, List.reverse_cons, get?_append, Option.or_assoc]
      show _ = (Ordered.get? rest.reverse id).or ((Ordered.get? [(k, e)] id).or _)
      rw [settleEntry, Ordered.get?_insert, Ordered.get?_erase, Ordered.get?_cons, Ordered.get?_nil]
      by_cases hid : id = k <;> simp [hid]

variable {kind : RegistryKind α} {t : FileTree} {policy : DuplicatePolicy}

/-- What a document with a source makes of a registry shows in the entries alone. -/
theorem entries_settle (policy : DuplicatePolicy) (r : Registry α) (id : String) (d : α)
    (directory : String) :
    (settleDocument policy r (id, ⟨d, some directory⟩)).entries =
      settleEntry policy r.entries (id, ⟨d, some directory⟩) := by
  unfold settleDocument
  cases hhas : r.has id with
  | false =>
      have hnew : id ∉ Ordered.keys r.entries := has_eq_false_iff_entries.mp hhas
      have hins := insert_of_absent hnew (⟨d, some directory⟩ : RegistryEntry α)
      have hold : Ordered.has r.entries id = false := has_eq_false_iff.mpr hnew
      rw [if_neg Bool.false_ne_true, entries_store hhas]
      cases policy with
      | overwrite => rw [settleEntry, erase_of_absent hnew, hins]
      | skip | refuse => rw [settleEntry, Ordered.insertNew, hold, if_neg Bool.false_ne_true, hins]
  | true =>
      have hold : Ordered.has r.entries id = true := has_iff.mpr (has_iff_entries.mp hhas)
      rw [if_pos rfl]
      cases policy with
      | overwrite =>
          have hgone := has_remove r id
          have hnew : id ∉ Ordered.keys (Ordered.erase r.entries id) := by
            rw [← entries_remove]
            exact has_eq_false_iff_entries.mp hgone
          rw [settleEntry, insert_of_absent hnew, ← entries_remove]
          exact entries_store hgone
      | skip | refuse => rw [settleEntry, Ordered.insertNew, hold, if_pos rfl]

theorem entries_settled {es : Ordered (RegistryEntry α)}
    (hsources : ∀ e ∈ es, ∃ directory, e.2.source = some directory) (r : Registry α) :
    (es.foldl (settleDocument policy) r).entries = es.foldl (settleEntry policy) r.entries := by
  induction es generalizing r with
  | nil => rfl
  | cons entry rest ih =>
      obtain ⟨id, d, source⟩ := entry
      obtain ⟨⟨directory, rfl⟩, hrest⟩ := List.forall_mem_cons.mp hsources
      rw [List.foldl_cons, List.foldl_cons, ih hrest, entries_settle]

theorem source_of_mem_validEntries {offers : List Offer} {entry : String × RegistryEntry α}
    (h : entry ∈ validEntries kind t offers) : ∃ directory, entry.2.source = some directory := by
  obtain ⟨o, -, htaken⟩ := List.mem_filterMap.mp h
  exact ⟨o.source, by rw [taken?_source htaken]⟩

theorem loadsBy_settled (hpolicy : policy ≠ .refuse) (offers : List Offer) (r : Registry α) :
    LoadsBy kind t policy offers r
      ((validEntries kind t offers).foldl (settleDocument policy) r) := by
  have hentries : ((validEntries kind t offers).foldl (settleDocument policy) r).entries = _ :=
    entries_settled (fun _ => source_of_mem_validEntries) r
  have hoffer : ∀ {id : String} {e : RegistryEntry α}, (id, e) ∈ validEntries kind t offers →
      ∃ o ∈ offers, o.taken? kind t = some (id, e) ∧ e.source = some o.source := by
    intro id e hmem
    obtain ⟨o, ho, hentry⟩ := List.mem_filterMap.mp hmem
    exact ⟨o, ho, hentry, by rw [taken?_source hentry]⟩
  cases policy with
  | refuse => exact absurd rfl hpolicy
  | skip =>
      have hread := get?_settled_skip r.entries (validEntries kind t offers)
      rw [← hentries] at hread
      refine ⟨fun _ => hread, nofun, fun id hid => ?_, fun id e he => ?_⟩
      · rw [hread, get?_eq_none_iff.mpr hid, Option.or_none]
      · rw [hread, Option.or_eq_some_iff] at he
        exact he.imp_right fun h => hoffer (mem_of_get? h.2)
  | overwrite =>
      have hread := get?_settled_overwrite r.entries (validEntries kind t offers)
      rw [← hentries] at hread
      refine ⟨nofun, fun _ => hread, fun id hid => ?_, fun id e he => ?_⟩
      · have hid' : id ∉ Ordered.keys (validEntries kind t offers).reverse := by
          rw [Ordered.keys, List.map_reverse, List.mem_reverse]
          exact hid
        rw [hread, get?_eq_none_iff.mpr hid', Option.none_or]
      · rw [hread, Option.or_eq_some_iff] at he
        exact he.symm.imp (fun h => h.2) fun h => hoffer (List.mem_reverse.mp (mem_of_get? h))

theorem accept_settles (hpolicy : policy ≠ .refuse) (source : String) (r : Registry α)
    (id : String) (d : α) :
    ∃ stored, r.accept policy source id d =
      some (settleDocument policy r (id, ⟨d, some source⟩), stored) := by
  unfold Registry.accept settleDocument
  cases r.has id with
  | false => exact ⟨true, rfl⟩
  | true =>
      cases policy with
      | refuse => exact absurd rfl hpolicy
      | skip => exact ⟨false, rfl⟩
      | overwrite => exact ⟨true, rfl⟩

/-! ## Files -/

/-- **Where nothing interrupts, the documents of files are settled one after another.** -/
theorem loadFiles_settles (kind : RegistryKind α) (hpolicy : policy ≠ .refuse) (source : String)
    {ps : List Formwork.Path} (quiet : ∀ p ∈ ps, Uninterrupted t p) (r : Registry α) (count : Nat) :
    ∃ n, Registry.loadFiles kind t policy source ps r count =
      ((validEntries kind t (ps.map (Offer.mk source))).foldl (settleDocument policy) r, .ok n) := by
  induction ps generalizing r count with
  | nil => exact ⟨count, rfl⟩
  | cons p ps ih =>
      obtain ⟨hquiet, hrest⟩ := List.forall_mem_cons.mp quiet
      have hcandidate := candidate?_of_uninterrupted kind ⟨source, p⟩ hquiet
      rw [List.map_cons, validEntries_cons, Registry.loadFiles, hcandidate]
      cases hentry : Offer.taken? kind t ⟨source, p⟩ with
      | none => exact ih hrest r count
      | some entry =>
          obtain ⟨id, e⟩ := entry
          obtain ⟨stored, haccept⟩ := accept_settles hpolicy source r id e.document
          dsimp only [Option.map_some]
          rw [haccept, ← taken?_source hentry]
          exact ih hrest _ _

/-- Loading comes to its end only if nothing interrupts it. -/
theorem loadFiles_quiet {source : String} {ps : List Formwork.Path} {r r' : Registry α}
    {count n : Nat} (h : Registry.loadFiles kind t policy source ps r count = (r', .ok n)) :
    ∀ p ∈ ps, Uninterrupted t p := by
  induction ps generalizing r count with
  | nil => exact fun p hp => absurd hp List.not_mem_nil
  | cons p ps ih =>
      have hquiet : Uninterrupted t p := by
        intro cause hcause
        rw [Registry.loadFiles, candidate?_of_interrupts hcause] at h
        cases h
      refine List.forall_mem_cons.mpr ⟨hquiet, ?_⟩
      rw [Registry.loadFiles, candidate?_of_uninterrupted kind ⟨source, p⟩ hquiet] at h
      cases hentry : Offer.taken? kind t ⟨source, p⟩ with
      | none => rw [hentry] at h; exact ih h
      | some entry =>
          rw [hentry] at h
          dsimp only [Option.map_some] at h
          split at h
          · cases h
          · exact ih h

/-! ## Directories -/

theorem loadEach_settles (kind : RegistryKind α) (hpolicy : policy ≠ .refuse)
    {directories : List Formwork.Path}
    (quiet : ∀ o ∈ directories.flatMap (offersOf t), Uninterrupted t o.path) (r : Registry α)
    (counts : Ordered Nat) :
    ∃ counts', Registry.loadEach kind t policy directories r counts =
      ((validEntries kind t (directories.flatMap (offersOf t))).foldl (settleDocument policy) r,
        .ok counts') := by
  induction directories generalizing r counts with
  | nil => exact ⟨counts, rfl⟩
  | cons d ds ih =>
      rw [List.flatMap_cons] at quiet
      obtain ⟨hfirst, hrest⟩ := List.forall_mem_append.mp quiet
      have hfiles : ∀ p ∈ documentsOf t d, Uninterrupted t p :=
        fun p hp => hfirst ⟨(t.resolve d).text, p⟩ (List.mem_map_of_mem hp)
      obtain ⟨n, hload⟩ := loadFiles_settles kind hpolicy (t.resolve d).text hfiles r 0
      obtain ⟨counts', heq⟩ := ih hrest
        ((validEntries kind t (offersOf t d)).foldl (settleDocument policy) r)
        (Ordered.insert counts (t.resolve d).text n)
      refine ⟨counts', ?_⟩
      rw [loadEach_cons, hload, List.flatMap_cons, validEntries_append, List.foldl_append]
      exact heq

theorem loadEach_quiet {directories : List Formwork.Path} {r r' : Registry α}
    {counts counts' : Ordered Nat}
    (h : Registry.loadEach kind t policy directories r counts = (r', .ok counts')) :
    ∀ o ∈ directories.flatMap (offersOf t), Uninterrupted t o.path := by
  induction directories generalizing r counts with
  | nil => exact fun o ho => absurd ho List.not_mem_nil
  | cons d ds ih =>
      rw [loadEach_cons] at h
      split at h
      · cases h
      · rename_i n hload
        rw [List.flatMap_cons]
        refine List.forall_mem_append.mpr ⟨fun o ho => ?_, ih h⟩
        obtain ⟨p, hp, rfl⟩ := List.mem_map.mp ho
        exact loadFiles_quiet hload p hp

/-- A load returns, and with a success. -/
def Succeeds {β : Type} (load : Registry α × Except Interruption (LoadResult β)) : Prop :=
  ∃ loaded, load.2 = .ok loaded ∧ loaded.isSuccess = true

theorem isSuccess_toResult {β : Type} (e : LoadError) (source : Option String) :
    (e.toResult source : LoadResult β).isSuccess = false := by
  unfold LoadError.toResult
  split <;> rfl

theorem succeeds_toResult_iff {β : Type} {r : Registry α} {outcome : Except LoadStop β} :
    Succeeds (r, LoadStop.toResult outcome) ↔ ∃ b, outcome = .ok b := by
  constructor
  · rintro ⟨loaded, hloaded, hsuccess⟩
    cases outcome with
    | ok b => exact ⟨b, rfl⟩
    | error stop =>
        cases stop with
        | interrupted cause => cases hloaded
        | failed e =>
            cases hloaded
            rw [isSuccess_toResult] at hsuccess
            cases hsuccess
  · rintro ⟨b, rfl⟩
    exact ⟨_, rfl, rfl⟩

theorem not_succeeds_toResult {β : Type} {r : Registry α} {e : LoadError}
    {source : Option String} :
    ¬Succeeds (r, (.ok (e.toResult source) : Except Interruption (LoadResult β))) := by
  rintro ⟨loaded, hloaded, hsuccess⟩
  cases hloaded
  rw [isSuccess_toResult] at hsuccess
  cases hsuccess

/-- A load that comes to its end if nothing interrupts it, and only then, having settled all that it
was offered, loads by its policy. -/
theorem loadsBy_of_settles {β : Type} (hpolicy : policy ≠ .refuse) {offers : List Offer}
    {r : Registry α} {loaded : Registry α × Except LoadStop β}
    (hquiet : (∃ b, loaded.2 = .ok b) → ∀ o ∈ offers, Uninterrupted t o.path)
    (hsettles : (∀ o ∈ offers, Uninterrupted t o.path) →
      ∃ b, loaded = ((validEntries kind t offers).foldl (settleDocument policy) r, .ok b)) :
    (Succeeds (loaded.1, LoadStop.toResult loaded.2) ↔ ∀ o ∈ offers, Uninterrupted t o.path)
      ∧ (Succeeds (loaded.1, LoadStop.toResult loaded.2) →
        LoadsBy kind t policy offers r loaded.1) := by
  rw [succeeds_toResult_iff]
  refine ⟨⟨hquiet, fun quiet => ?_⟩, fun h => ?_⟩
  · obtain ⟨b, heq⟩ := hsettles quiet
    exact ⟨b, by rw [heq]⟩
  · obtain ⟨b, heq⟩ := hsettles (hquiet h)
    rw [heq]
    exact loadsBy_settled hpolicy offers r

/-- **What a load of several directories comes to.** It succeeds when there is a directory and
nothing interrupts. -/
theorem loadDirectories_loadsBy (hpolicy : policy ≠ .refuse) (directories : List Formwork.Path)
    (r : Registry α) :
    (Succeeds (Registry.loadDirectories kind t policy directories r) ↔
        directories ≠ [] ∧ ∀ o ∈ directories.flatMap (offersOf t), Uninterrupted t o.path)
      ∧ (Succeeds (Registry.loadDirectories kind t policy directories r) →
        LoadsBy kind t policy (directories.flatMap (offersOf t)) r
          (Registry.loadDirectories kind t policy directories r).1) := by
  by_cases hnone : directories = []
  · subst hnone
    have hfails : ¬Succeeds (Registry.loadDirectories kind t policy [] r) := not_succeeds_toResult
    exact ⟨iff_of_false hfails fun h => h.1 rfl, fun h => absurd h hfails⟩
  · have hload : Registry.loadDirectories kind t policy directories r =
        ((Registry.loadEach kind t policy directories r []).1,
          LoadStop.toResult (Registry.loadEach kind t policy directories r []).2) := by
      rw [Registry.loadDirectories, if_neg (by simpa using hnone)]
    rw [hload, and_iff_right hnone]
    refine loadsBy_of_settles hpolicy ?_ fun quiet => loadEach_settles kind hpolicy quiet r []
    rintro ⟨_, h⟩
    exact loadEach_quiet (Prod.ext rfl h)

/-- **What a load of one directory comes to.** It succeeds when the directory is there and nothing
interrupts. -/
theorem loadDirectory_loadsBy (hpolicy : policy ≠ .refuse) (directory : Formwork.Path)
    (r : Registry α) :
    (Succeeds (Registry.loadDirectory kind t policy directory r) ↔
        t.leadsToDirectory directory = true ∧ ∀ p ∈ t.documents directory, Uninterrupted t p)
      ∧ (Succeeds (Registry.loadDirectory kind t policy directory r) →
        LoadsBy kind t policy ((t.documents directory).map (Offer.mk directory.text)) r
          (Registry.loadDirectory kind t policy directory r).1) := by
  cases hthere : t.leadsToDirectory directory with
  | false =>
      have hload : Registry.loadDirectory kind t policy directory r =
          (r, .ok ((LoadError.notADirectory directory.text).toResult none)) := by
        rw [Registry.loadDirectory, hthere, if_neg Bool.false_ne_true]
      have hfails : ¬Succeeds (Registry.loadDirectory kind t policy directory r) := by
        rw [hload]
        exact not_succeeds_toResult
      exact ⟨iff_of_false hfails fun h => Bool.false_ne_true h.1, fun h => absurd h hfails⟩
  | true =>
      have hload : Registry.loadDirectory kind t policy directory r =
          ((Registry.loadFiles kind t policy directory.text (t.documents directory) r 0).1,
            LoadStop.toResult
              (Registry.loadFiles kind t policy directory.text (t.documents directory) r 0).2) := by
        rw [Registry.loadDirectory, hthere, if_pos rfl]
      have hpaths : (∀ o ∈ (t.documents directory).map (Offer.mk directory.text),
          Uninterrupted t o.path) ↔ ∀ p ∈ t.documents directory, Uninterrupted t p :=
        List.forall_mem_map
      rw [hload, and_iff_right rfl, ← hpaths]
      refine loadsBy_of_settles hpolicy ?_ fun quiet =>
        loadFiles_settles kind hpolicy directory.text (hpaths.mp quiet) r 0
      rintro ⟨_, h⟩
      exact hpaths.mpr (loadFiles_quiet (Prod.ext rfl h))

end Loads

/-! ## Whatever is done to a registry -/

/-- What is done to a registry. -/
inductive RegistryAction (α : Type) where
  | register (id : String) (document : α) (source : Option String)
  | unregister (id : String)
  | clear
  | loadDirectories (t : FileTree) (policy : DuplicatePolicy) (directories : List Formwork.Path)
  | loadDirectory (t : FileTree) (policy : DuplicatePolicy) (directory : Formwork.Path)

namespace RegistryAction

variable {α : Type}

/-- A registry after an attempt to change it, and what was raised. -/
def attempt (r : Registry α) : Except RegistryFault (Registry α) →
    Registry α × Option RegistryFault
  | .ok changed => (changed, none)
  | .error fault => (r, some fault)

theorem attempt_refused {r : Registry α} {outcome : Except RegistryFault (Registry α)}
    {fault : RegistryFault} (h : (attempt r outcome).2 = some fault) :
    (attempt r outcome).1 = r := by
  cases outcome with
  | ok changed => cases h
  | error fault' => rfl

/-- The registry after an action, and what the action raised if it was refused. -/
def act (kind : RegistryKind α) (r : Registry α) : RegistryAction α →
    Registry α × Option RegistryFault
  | .register id document source => attempt r (r.register id document source)
  | .unregister id => attempt r (r.unregister id)
  | .clear => (.empty, none)
  | .loadDirectories t policy directories =>
    ((Registry.loadDirectories kind t policy directories r).1, none)
  | .loadDirectory t policy directory =>
    ((Registry.loadDirectory kind t policy directory r).1, none)

/-- The registry after actions, one after another, from the empty one on. -/
def run (kind : RegistryKind α) (actions : List (RegistryAction α)) : Registry α :=
  actions.foldl (fun r a => (a.act kind r).1) .empty

/-- What the action registers may have the id that it is registered under. -/
def Registers (mayHave : String → α → Prop) : RegistryAction α → Prop
  | .register id document _ => mayHave id document
  | _ => True

/-- The document is registered under an id of its own. -/
def isOwn (kind : RegistryKind α) : RegistryAction α → Prop :=
  Registers fun id d => ∃ stem, id = kind.idOf stem d

end RegistryAction

section Runs

variable {α : Type} {kind : RegistryKind α}

/-- A document is a candidate for an id of its own. -/
theorem candidate?_own {t : FileTree} {p : Formwork.Path} {id : String} {d : α}
    (h : Registry.candidate? kind t p = .ok (some (id, d))) : ∃ stem, id = kind.idOf stem d := by
  obtain ⟨loaded, -, hvalid⟩ := map_eq_ok.mp h
  obtain ⟨document, -, heq⟩ := Option.map_eq_some_iff.mp hvalid
  cases heq
  exact ⟨_, rfl⟩

/-- A document that is taken up is passed over or stored, in the place of what had its id. -/
theorem accept_cases {policy : DuplicatePolicy} {source id : String} {r r' : Registry α} {d : α}
    {stored : Bool} (h : r.accept policy source id d = some (r', stored)) :
    r' = r ∨ (r.has id = false ∧ r' = r.store id d (some source))
      ∨ r' = (r.remove id).store id d (some source) := by
  unfold Registry.accept at h
  cases hhas : r.has id with
  | true =>
      rw [hhas, if_pos rfl] at h
      cases policy with
      | skip => cases h; exact .inl rfl
      | overwrite => cases h; exact .inr (.inr rfl)
      | refuse => cases h
  | false =>
      rw [hhas, if_neg Bool.false_ne_true] at h
      cases h
      exact .inr (.inl ⟨rfl, rfl⟩)

section Keeping

variable {Q : Registry α → Prop}
  (hstore : ∀ r stem d source, r.has (kind.idOf stem d) = false → Q r →
    Q (r.store (kind.idOf stem d) d source))
  (hremove : ∀ r id, Q r → Q (r.remove id))

include hstore hremove

/-- **All that a load does to a registry is to store new documents under their own ids**, and to take
out those that had these ids before. -/
theorem loadFiles_keeps (t : FileTree) (policy : DuplicatePolicy) (source : String)
    (ps : List Formwork.Path) {r : Registry α} (h : Q r) (count : Nat) :
    Q (Registry.loadFiles kind t policy source ps r count).1 := by
  induction ps generalizing r count with
  | nil => exact h
  | cons p ps ih =>
      rw [Registry.loadFiles]
      split
      · exact h
      · exact ih h count
      · rename_i id d hcandidate
        obtain ⟨stem, rfl⟩ := candidate?_own hcandidate
        split
        · exact h
        · rename_i r' stored haccept
          refine ih ?_ _
          rcases accept_cases haccept with rfl | ⟨hnew, rfl⟩ | rfl
          · exact h
          · exact hstore r stem d _ hnew h
          · exact hstore _ stem d _ (has_remove r _) (hremove r _ h)

theorem loadEach_keeps (t : FileTree) (policy : DuplicatePolicy)
    (directories : List Formwork.Path) {r : Registry α} (h : Q r) (counts : Ordered Nat) :
    Q (Registry.loadEach kind t policy directories r counts).1 := by
  induction directories generalizing r counts with
  | nil => exact h
  | cons d ds ih =>
      have hfirst :=
        loadFiles_keeps hstore hremove t policy (t.resolve d).text (documentsOf t d) h 0
      rw [loadEach_cons]
      split
      · rename_i hload
        rwa [hload] at hfirst
      · rename_i hload
        rw [hload] at hfirst
        exact ih hfirst _

/-- **What storing and taking out keep holds after whatever is done to a registry.** -/
theorem act_keeps {mayHave : String → α → Prop} (hempty : Q .empty)
    (hregister : ∀ r id d source, mayHave id d → r.has id = false → Q r → Q (r.store id d source))
    {r : Registry α} (h : Q r) {a : RegistryAction α} (ha : a.Registers mayHave) :
    Q (a.act kind r).1 := by
  cases a with
  | register id d source =>
      rw [RegistryAction.act, Registry.register]
      split
      · exact h
      · rename_i hnew
        exact hregister r id d source ha (Bool.not_eq_true _ ▸ hnew) h
  | unregister id =>
      rw [RegistryAction.act, Registry.unregister]
      split
      · exact hremove r id h
      · exact h
  | clear => exact hempty
  | loadDirectories t policy directories =>
      rw [RegistryAction.act, Registry.loadDirectories]
      split
      · exact h
      · exact loadEach_keeps hstore hremove t policy directories h []
  | loadDirectory t policy directory =>
      rw [RegistryAction.act, Registry.loadDirectory]
      split
      · exact loadFiles_keeps hstore hremove t policy _ _ h 0
      · exact h

theorem run_keeps (mayHave : String → α → Prop) (hempty : Q .empty)
    (hregister : ∀ r id d source, mayHave id d → r.has id = false → Q r → Q (r.store id d source))
    {actions : List (RegistryAction α)} (hactions : ∀ a ∈ actions, a.Registers mayHave) :
    Q (RegistryAction.run kind actions) := by
  have hfrom : ∀ r, Q r → Q (actions.foldl (fun r a => (a.act kind r).1) r) := by
    induction actions with
    | nil => exact fun r h => h
    | cons a as ih =>
        intro r h
        exact ih (fun b hb => hactions b (List.mem_cons_of_mem _ hb)) _
          (act_keeps hstore hremove hempty hregister h (hactions a (List.mem_cons_self ..)))
  exact hfrom .empty hempty

end Keeping

/-- The two maps of a registry are in step. -/
structure InStep (r : Registry α) : Prop where
  documents : (Ordered.keys r.documents).Nodup
  sources : (Ordered.keys r.sources).Nodup
  /-- What came from a directory is there. -/
  known : ∀ id ∈ Ordered.keys r.sources, id ∈ Ordered.keys r.documents

theorem InStep.store {r : Registry α} (h : InStep r) (id : String) (d : α)
    (source : Option String) : InStep (r.store id d source) := by
  have hdocument : ∀ k, k ∈ Ordered.keys (Ordered.insert r.documents id d) ↔
      k ∈ Ordered.keys r.documents ∨ k = id := fun k => mem_keys_insert
  refine ⟨nodup_keys_insert h.documents id d, ?_, fun k hk => (hdocument k).mpr ?_⟩
  · cases source with
    | none => exact h.sources
    | some directory => exact nodup_keys_insert h.sources id directory
  · cases source with
    | none => exact .inl (h.known k hk)
    | some directory => exact (mem_keys_insert.mp hk).imp_left (h.known k)

theorem InStep.remove {r : Registry α} (h : InStep r) (id : String) : InStep (r.remove id) := by
  refine ⟨h.documents.sublist (List.filter_sublist.map _),
    h.sources.sublist (List.filter_sublist.map _), fun k hk => ?_⟩
  obtain ⟨hsource, hne⟩ := mem_keys_erase.mp hk
  exact mem_keys_erase.mpr ⟨h.known k hsource, hne⟩

/-- **Whatever is done to a registry, its two maps stay in step.** -/
theorem run_inStep (kind : RegistryKind α) (actions : List (RegistryAction α)) :
    InStep (RegistryAction.run kind actions) := by
  refine run_keeps (fun r stem d source _ h => h.store _ d source) (fun r id h => h.remove id)
    (fun _ _ => True) ⟨List.nodup_nil, List.nodup_nil, nofun⟩
    (fun r id d source _ _ h => h.store id d source) fun a _ => ?_
  cases a <;> trivial

/-- A document is recorded under an id of its own, if it is never registered under another. -/
theorem run_own {actions : List (RegistryAction α)} (hactions : ∀ a ∈ actions, a.isOwn kind) :
    ∀ e ∈ (RegistryAction.run kind actions).documents, ∃ stem, e.1 = kind.idOf stem e.2 := by
  have hstore : ∀ (r : Registry α) id d source, (∃ stem, id = kind.idOf stem d) →
      (∀ e ∈ r.documents, ∃ stem, e.1 = kind.idOf stem e.2) →
      ∀ e ∈ (r.store id d source).documents, ∃ stem, e.1 = kind.idOf stem e.2 := by
    intro r id d source hid h e he
    rcases mem_insert_cases he with he | rfl
    · exact h e he
    · exact hid
  refine run_keeps (fun r stem d source _ => hstore r _ d source ⟨stem, rfl⟩)
    (fun r id h e he => h e (List.mem_filter.mp he).1) _ (fun e he => absurd he List.not_mem_nil)
    (fun r id d source hid _ => hstore r id d source hid) hactions

end Runs

/--
**What registries hold.**

Whatever a registry held before, a load under a policy that does not refuse succeeds unless there is
nothing to load from or a file interrupts it, and then it comes to what `LoadsBy` says of the
documents in the order of directories and paths. Whatever has been done to a registry, an id is
recorded once in each of its maps, a source belongs to an id that is registered, what was refused has
changed nothing, and sub-forms are under their own ids.
-/
theorem registry_holds :
    (∀ {α : Type} (kind : RegistryKind α) (t : FileTree) (policy : DuplicatePolicy),
      policy ≠ .refuse → ∀ r : Registry α,
        (∀ directories,
          (Succeeds (Registry.loadDirectories kind t policy directories r) ↔ directories ≠ []
            ∧ ∀ o ∈ directories.flatMap (offersOf t), Uninterrupted t o.path)
          ∧ (Succeeds (Registry.loadDirectories kind t policy directories r) →
            LoadsBy kind t policy (directories.flatMap (offersOf t)) r
              (Registry.loadDirectories kind t policy directories r).1))
        ∧ ∀ directory,
          (Succeeds (Registry.loadDirectory kind t policy directory r) ↔
            t.leadsToDirectory directory = true
              ∧ ∀ p ∈ t.documents directory, Uninterrupted t p)
          ∧ (Succeeds (Registry.loadDirectory kind t policy directory r) →
            LoadsBy kind t policy ((t.documents directory).map (Offer.mk directory.text)) r
              (Registry.loadDirectory kind t policy directory r).1))
    ∧ (∀ (t : FileTree) (directory : Formwork.Path), (t.documents directory).Pairwise
        fun p q => FileTree.precedes p.names q.names = true)
    ∧ (∀ {α : Type} (kind : RegistryKind α) (actions : List (RegistryAction α)),
        (Ordered.keys (RegistryAction.run kind actions).documents).Nodup
        ∧ (Ordered.keys (RegistryAction.run kind actions).sources).Nodup
        ∧ (∀ id source, (RegistryAction.run kind actions).source? id = some source →
          (RegistryAction.run kind actions).has id = true)
        ∧ ∀ a fault, (RegistryAction.act kind (RegistryAction.run kind actions) a).2 = some fault →
          (RegistryAction.act kind (RegistryAction.run kind actions) a).1 =
            RegistryAction.run kind actions)
    ∧ ∀ actions : List (RegistryAction SubForm), (∀ a ∈ actions, a.isOwn subFormRegistry) →
        ∀ id s, (RegistryAction.run subFormRegistry actions).lookup id = some s → s.id = id := by
  refine ⟨fun kind t policy hpolicy r => ⟨fun directories => loadDirectories_loadsBy hpolicy _ r,
    fun directory => loadDirectory_loadsBy hpolicy _ r⟩, documents_sorted,
    fun kind actions => ⟨(run_inStep kind actions).documents, (run_inStep kind actions).sources,
      fun id source h => ?_, fun a fault h => ?_⟩,
    fun actions hactions id s h => ?_⟩
  · have hsource := List.mem_map_of_mem (f := Prod.fst) (mem_of_get? h)
    exact has_iff.mpr ((run_inStep kind actions).known id hsource)
  · generalize RegistryAction.run kind actions = r at h ⊢
    cases a with
    | register id d source =>
        rw [RegistryAction.act] at h ⊢
        exact RegistryAction.attempt_refused h
    | unregister id =>
        rw [RegistryAction.act] at h ⊢
        exact RegistryAction.attempt_refused h
    | clear | loadDirectories _ _ _ | loadDirectory _ _ _ => cases h
  · obtain ⟨stem, hid⟩ := run_own hactions _ (mem_of_get? h)
    exact hid.symm

/-! ## Two files with one id -/

/-- The form of a first file that has the id of the second one. -/
def titledB : Form := ⟨some "b", some "B", "1.0", [], none⟩

/-- Two files that hold forms with one id. -/
def rivalFiles : FileTree := twoFiles (.text "id: b\ntitle: B\n")

theorem taken?_titledB : Offer.taken? formRegistry rivalFiles
    ⟨"/forms", ⟨true, ["forms", "a.yaml"]⟩⟩ = some ("b", ⟨titledB, some "/forms"⟩) := by
  have hload : (formKind.loadFile rivalFiles ⟨true, ["forms", "a.yaml"]⟩
      (Formwork.Path.text ⟨true, ["forms", "a.yaml"]⟩)).toOption.bind LoadResult.unwrap? =
      some titledB := by decide +kernel
  unfold Offer.taken?
  rw [show formRegistry.documents = formKind from rfl, hload]
  rfl

theorem validEntries_rivalFiles : validEntries formRegistry rivalFiles twoOffers =
    [("b", ⟨titledB, some "/forms"⟩), ("b", ⟨formB, some "/forms"⟩)] := by
  rw [twoOffers, validEntries_cons, validEntries_cons, taken?_titledB, rivalFiles, taken?_formB]
  rfl

/-- A sub-form that is registered by itself. -/
def officeForm : SubForm := ⟨"office", "Head office", "1.0", [], none⟩

/-- The first form is kept when documents with a known id are skipped, and the second one when they
are overwritten. A second registration is refused and changes nothing. -/
theorem registry_holds_rivals :
    let load := fun policy =>
      Registry.loadDirectories formRegistry rivalFiles policy [formsDirectory] .empty
    let registered := RegistryAction.run formRegistry [.register "b" titledB none]
    let again := RegistryAction.act formRegistry registered (.register "b" formB none)
    Succeeds (load .skip) ∧ (load .skip).1.lookup "b" = some titledB
      ∧ Succeeds (load .overwrite) ∧ (load .overwrite).1.lookup "b" = some formB
      ∧ again.2 = some (.alreadyRegistered "b") ∧ again.1 = registered
      ∧ ∃ s, (RegistryAction.run subFormRegistry [.register "office" officeForm none]).lookup
        "office" = some s ∧ s.id = "office" := by
  intro load registered again
  obtain ⟨hloads, -, hruns, hsubForms⟩ := registry_holds
  have hoffers : [formsDirectory].flatMap (offersOf rivalFiles) = twoOffers := by
    have hname : (rivalFiles.resolve formsDirectory).text = "/forms" := by decide
    rw [List.flatMap_singleton, offersOf, hname, rivalFiles, documentsOf_twoFiles]
    rfl
  have hquiet : ∀ o ∈ [formsDirectory].flatMap (offersOf rivalFiles),
      Uninterrupted rivalFiles o.path := by
    intro o ho
    rw [hoffers] at ho
    rcases List.mem_pair.mp ho with rfl | rfl
    · exact uninterrupted_of_taken taken?_titledB
    · exact uninterrupted_of_taken (taken?_formB _)
  obtain ⟨hskip, hskips⟩ := (hloads formRegistry rivalFiles .skip (by decide) .empty).1
    [formsDirectory]
  obtain ⟨hover, hovers⟩ := (hloads formRegistry rivalFiles .overwrite (by decide) .empty).1
    [formsDirectory]
  have hskipped : Succeeds (load .skip) := hskip.mpr ⟨by decide, hquiet⟩
  have hoverwritten : Succeeds (load .overwrite) := hover.mpr ⟨by decide, hquiet⟩
  have hfirst := (hskips hskipped).skip rfl "b"
  have hlast := (hovers hoverwritten).overwrite rfl "b"
  rw [hoffers, validEntries_rivalFiles] at hfirst hlast
  have hrefused : again.2 = some (.alreadyRegistered "b") := by decide
  have hoffice : (RegistryAction.run subFormRegistry
      [.register "office" officeForm none]).lookup "office" = some officeForm := by decide
  refine ⟨hskipped, lookup_of_entry hfirst, hoverwritten, lookup_of_entry hlast, hrefused,
    (hruns formRegistry [.register "b" titledB none]).2.2.2 _ _ hrefused, officeForm, hoffice,
    hsubForms _ (fun a ha => ?_) _ _ hoffice⟩
  cases List.mem_singleton.mp ha
  exact ⟨"", rfl⟩

end Formwork.Proofs
