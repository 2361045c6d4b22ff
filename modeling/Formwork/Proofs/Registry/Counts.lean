import Formwork.Proofs.Registry.Policy
import Formwork.Proofs.Values.ErrorTree
import Mathlib.Algebra.GroupWithZero.Nat

/-!
# The counts of a load

A load of several directories says for each how many documents it has stored, under the name of the
directory. A directory that is given again, in whatever spelling, has nothing more to store, and its
count is written over. So the counts add up to the documents that come from directories given once
(`load_counts`); what holds after each directory is the `Tally` of those visited so far.
-/

namespace Formwork.Proofs

open Formwork

/-! ## Names of directories -/

section Paths

variable {p q : Formwork.Path}

/-- The names of a path hold no slash, and each of them says something. -/
def PlainPath (p : Formwork.Path) : Prop :=
  ∀ name ∈ p.names, Formwork.Path.isIdle name = false ∧ '/' ∉ name.toList

theorem plainPath_ofText (s : String) : PlainPath (Formwork.Path.ofText s) := by
  intro name hname
  obtain ⟨hpart, hidle⟩ := List.mem_filter.mp hname
  obtain ⟨cs, hcs, rfl⟩ := List.mem_map.mp hpart
  rw [String.toList_ofList]
  exact ⟨by simpa using hidle, not_mem_of_mem_splitOn hcs⟩

theorem plain_of_follow {names start : List String}
    (hstart : ∀ name ∈ start, Formwork.Path.isIdle name = false ∧ '/' ∉ name.toList)
    (hnames : ∀ name ∈ names, Formwork.Path.isIdle name = false ∧ '/' ∉ name.toList) :
    ∀ name ∈ names.foldl Formwork.Path.follow start,
      Formwork.Path.isIdle name = false ∧ '/' ∉ name.toList := by
  induction names generalizing start with
  | nil => exact hstart
  | cons first rest ih =>
      obtain ⟨hfirst, hrest⟩ := List.forall_mem_cons.mp hnames
      refine ih (fun name hname => ?_) hrest
      rw [Formwork.Path.follow] at hname
      split at hname
      · exact hstart name (List.dropLast_subset _ hname)
      · rcases List.mem_append.mp hname with hold | hnew
        · exact hstart name hold
        · rwa [List.mem_singleton.mp hnew]

/-- What a plain path leads to from the root is plain, wherever one is. -/
theorem PlainPath.resolve (h : PlainPath p) (t : FileTree) : PlainPath (t.resolve p) := by
  refine plain_of_follow (fun name hname => ?_) h
  rw [FileTree.start] at hname
  split at hname
  · exact absurd hname List.not_mem_nil
  · exact plain_of_follow (fun _ h => absurd h List.not_mem_nil) (plainPath_ofText t.here) name
      hname

theorem splitChar_intercalate {names : List String} (h : ∀ name ∈ names, '/' ∉ name.toList)
    (hne : names ≠ []) : Text.splitChar '/' ("/".intercalate names) = names := by
  have hparts : ∀ cs ∈ names.map String.toList, '/' ∉ cs := by
    intro cs hcs
    obtain ⟨name, hname, rfl⟩ := List.mem_map.mp hcs
    exact h name hname
  have hslash : "/".toList = ['/'] := rfl
  rw [Text.splitChar, String.toList_intercalate, hslash,
    List.splitOn_intercalate '/' hparts (by simpa using hne), List.map_map]
  exact List.map_id'' (fun _ => String.ofList_toList) names

/-- **A path is read back from its text.** -/
theorem PlainPath.ofText_text (h : PlainPath p) : Formwork.Path.ofText p.text = p := by
  obtain ⟨rooted, names⟩ := p
  have hslash : ∀ name ∈ names, '/' ∉ name.toList := fun name hname => (h name hname).2
  have hkeep : names.filter (fun part => !Formwork.Path.isIdle part) = names :=
    List.filter_eq_self.mpr fun name hname => by rw [(h name hname).1]; rfl
  cases names with
  | nil => cases rooted <;> decide
  | cons first rest =>
      cases rooted with
      | true =>
          have htext : Formwork.Path.text ⟨true, first :: rest⟩ =
              "/".intercalate ("" :: first :: rest) := by
            rw [← String.toList_inj]
            simp [Formwork.Path.text, String.toList_intercalate]
          have hall : ∀ name ∈ "" :: first :: rest, '/' ∉ name.toList :=
            List.forall_mem_cons.mpr ⟨by decide, hslash⟩
          have hsplit := splitChar_intercalate hall (List.cons_ne_nil _ _)
          rw [Formwork.Path.ofText, htext, hsplit, List.filter_cons_of_neg (by decide), hkeep]
          simp [String.toList_intercalate]
      | false =>
          have hsplit := splitChar_intercalate hslash (List.cons_ne_nil _ _)
          have hfirst : ("/".intercalate (first :: rest)).toList.head? ≠ some '/' := by
            obtain ⟨hidle, hno⟩ := h first (List.mem_cons_self ..)
            have hne : first.toList ≠ [] := by
              intro hnil
              rw [String.toList_eq_nil_iff] at hnil
              subst hnil
              cases hidle
            obtain ⟨c, cs, hcs⟩ := List.exists_cons_of_ne_nil hne
            have hhead : ("/".intercalate (first :: rest)).toList.head? = some c := by
              cases rest <;> simp [String.toList_intercalate, hcs]
            rw [hhead]
            rintro ⟨⟩
            exact hno (hcs ▸ List.mem_cons_self ..)
          show Formwork.Path.ofText ("/".intercalate (first :: rest)) = _
          rw [Formwork.Path.ofText, hsplit, hkeep, beq_false_of_ne hfirst]

/-- Directories that are reported by one name are the same. -/
theorem PlainPath.eq_of_text (hp : PlainPath p) (hq : PlainPath q) (h : p.text = q.text) :
    p = q := by
  rw [← hp.ofText_text, h, hq.ofText_text]

end Paths

/-! ## What one directory adds -/

section Counting

variable {α : Type} {kind : RegistryKind α} {t : FileTree}

/-- The names that directories are reported by, in the order in which they are given. -/
def reportedNames (t : FileTree) (directories : List Formwork.Path) : List String :=
  directories.map fun d => (t.resolve d).text

/-- Whether a registered document comes from the directory of this name. -/
def isFrom (name : String) (entry : String × RegistryEntry α) : Bool :=
  entry.2.source == some name

/-- Whether a registered document comes from a directory that is named exactly once. -/
def isFromSingle (names : List String) (entry : String × RegistryEntry α) : Bool :=
  entry.2.source.any fun name => names.count name == 1

/-- What is added of the valid documents of a directory, when what is there stays: documents with it
as their source, after which the ids of all of them are taken; nothing if all were taken before. -/
structure Adds (directory : String) (valid before added : Ordered (RegistryEntry α)) : Prop where
  sources : ∀ e ∈ added, e.2.source = some directory
  present : ∀ e ∈ valid, e.1 ∈ Ordered.keys (before ++ added)
  nothing : (∀ e ∈ valid, e.1 ∈ Ordered.keys before) → added = []

theorem keys_append (m n : Ordered (RegistryEntry α)) :
    Ordered.keys (m ++ n) = Ordered.keys m ++ Ordered.keys n := List.map_append

/-- **The count of a directory is the number of documents that it adds.** -/
theorem loadFiles_adds {source : String} {ps : List Formwork.Path}
    (quiet : ∀ p ∈ ps, Uninterrupted t p) (r : Registry α) (count : Nat) :
    ∃ r' added, Adds source (validEntries kind t (ps.map (Offer.mk source))) r.entries added ∧
      r'.entries = r.entries ++ added ∧
      Registry.loadFiles kind t .skip source ps r count = (r', .ok (count + added.length)) := by
  induction ps generalizing r count with
  | nil => exact ⟨r, [], ⟨nofun, nofun, fun _ => rfl⟩, (List.append_nil _).symm, rfl⟩
  | cons p ps ih =>
      obtain ⟨hquiet, hrest⟩ := List.forall_mem_cons.mp quiet
      have hcandidate := candidate?_of_uninterrupted kind ⟨source, p⟩ hquiet
      rw [Registry.loadFiles, hcandidate]
      have hvalid : validEntries kind t (⟨source, p⟩ :: ps.map (Offer.mk source)) =
          (Offer.taken? kind t ⟨source, p⟩).toList ++
            validEntries kind t (ps.map (Offer.mk source)) := validEntries_cons _ _
      cases hentry : Offer.taken? kind t ⟨source, p⟩ with
      | none =>
          rw [hentry, Option.toList_none, List.nil_append] at hvalid
          obtain ⟨r', added, hadds, hentries, hload⟩ := ih hrest r count
          rw [List.map_cons, hvalid]
          exact ⟨r', added, hadds, hentries, hload⟩
      | some entry =>
          obtain ⟨id, d, directory⟩ := entry
          obtain rfl : directory = some source :=
            congrArg RegistryEntry.source (taken?_source hentry)
          rw [hentry, Option.toList_some, List.singleton_append] at hvalid
          dsimp only [Option.map_some]
          rw [List.map_cons, hvalid]
          cases hhas : r.has id with
          | true =>
            -- the id is taken, and the document is passed over
            have hid : id ∈ Ordered.keys r.entries := has_iff_entries.mp hhas
            have haccept : r.accept .skip source id d = some (r, false) := by
              unfold Registry.accept
              rw [hhas, if_pos rfl]
            rw [haccept]
            obtain ⟨r', added, hadds, hentries, hload⟩ := ih hrest r count
            refine ⟨r', added,
              ⟨hadds.sources, List.forall_mem_cons.mpr ⟨?_, hadds.present⟩, ?_⟩, hentries, hload⟩
            · rw [keys_append]
              exact List.mem_append_left _ hid
            · exact fun hall => hadds.nothing (List.forall_mem_cons.mp hall).2
          | false =>
            have hid : id ∉ Ordered.keys r.entries := has_eq_false_iff_entries.mp hhas
            rw [accept_of_absent hhas]
            obtain ⟨r', added, hadds, hentries, hload⟩ :=
              ih hrest (r.store id d (some source)) (count + 1)
            rw [entries_store hhas] at hadds hentries
            rw [List.append_assoc, List.singleton_append] at hentries
            refine ⟨r', (id, ⟨d, some source⟩) :: added, ⟨?_, ?_, ?_⟩, hentries, ?_⟩
            · exact List.forall_mem_cons.mpr ⟨rfl, hadds.sources⟩
            · have hpresent := hadds.present
              rw [List.append_assoc, List.singleton_append] at hpresent
              refine List.forall_mem_cons.mpr ⟨?_, hpresent⟩
              rw [keys_append]
              exact List.mem_append_right _ (List.mem_cons_self ..)
            · exact fun hall => absurd (List.forall_mem_cons.mp hall).1 hid
            · refine hload.trans ?_
              rw [List.length_cons, Nat.add_right_comm, Nat.add_assoc]

/-! ## The counts of all directories -/

/-- Writing a number changes the sum by the difference to the one that it replaces. -/
theorem sum_values_insert (m : Ordered Nat) (key : String) (n : Nat) :
    (Ordered.values (Ordered.insert m key n)).sum + (Ordered.get? m key).getD 0 =
      (Ordered.values m).sum + n := by
  induction m with
  | nil => simp [Ordered.insert, Ordered.values]
  | cons entry rest ih =>
      obtain ⟨k, v⟩ := entry
      rw [Ordered.insert, Ordered.get?_cons]
      unfold Ordered.values at ih ⊢
      by_cases hk : k = key
      · subst hk
        rw [beq_self_eq_true, if_pos rfl, if_pos rfl]
        simp only [List.map_cons, List.sum_cons, Option.getD_some]
        omega
      · have hkey : (k == key) = false := by simpa using hk
        have hkey' : (key == k) = false := by simpa using fun heq : key = k => hk heq.symm
        rw [hkey, hkey', if_neg Bool.false_ne_true, if_neg Bool.false_ne_true]
        simp only [List.map_cons, List.sum_cons]
        omega

/-- Directories have been loaded, with these entries and counts. -/
structure Tally (kind : RegistryKind α) (t : FileTree) (visited : List Formwork.Path)
    (es : Ordered (RegistryEntry α)) (counts : Ordered Nat) : Prop where
  present : ∀ d ∈ visited, ∀ e ∈ validEntries kind t (offersOf t d), e.1 ∈ Ordered.keys es
  sources : ∀ e ∈ es, ∃ name ∈ reportedNames t visited, e.2.source = some name
  /-- A directory that is named again is left with what its last visit added, which is nothing. -/
  count : ∀ name ∈ reportedNames t visited, Ordered.get? counts name =
    some (if (reportedNames t visited).count name = 1 then es.countP (isFrom name) else 0)
  unnamed : ∀ name, name ∉ reportedNames t visited → Ordered.get? counts name = none
  total : (Ordered.values counts).sum = es.countP (isFromSingle (reportedNames t visited))

theorem tally_empty : Tally kind t [] ([] : Ordered (RegistryEntry α)) [] :=
  ⟨nofun, nofun, nofun, fun _ _ => rfl, rfl⟩

theorem isFrom_iff {name : String} {e : String × RegistryEntry α} :
    isFrom name e = true ↔ e.2.source = some name := beq_iff_eq

theorem isFromSingle_of_source {names : List String} {name : String}
    {e : String × RegistryEntry α} (h : e.2.source = some name) :
    isFromSingle names e = (names.count name == 1) := by
  rw [isFromSingle, h, Option.any_some]

theorem reportedNames_concat (t : FileTree) (visited : List Formwork.Path) (d : Formwork.Path) :
    reportedNames t (visited ++ [d]) = reportedNames t visited ++ [(t.resolve d).text] :=
  List.map_append

section Visit

variable {visited : List Formwork.Path} {es : Ordered (RegistryEntry α)} {counts : Ordered Nat}
  {d : Formwork.Path}

/-- A directory that has been visited has nothing to add. -/
theorem Tally.nothing (h : Tally kind t visited es counts) (hplain : ∀ p ∈ visited, PlainPath p)
    (hd : PlainPath d) (hname : (t.resolve d).text ∈ reportedNames t visited) :
    ∀ e ∈ validEntries kind t (offersOf t d), e.1 ∈ Ordered.keys es := by
  obtain ⟨d', hd', htext⟩ := List.mem_map.mp hname
  have hsame : t.resolve d' = t.resolve d :=
    ((hplain d' hd').resolve t).eq_of_text (hd.resolve t) htext
  have hoffers : offersOf t d' = offersOf t d := by
    rw [offersOf, offersOf, documentsOf, documentsOf, hsame]
  rw [← hoffers]
  exact h.present d' hd'

theorem count_concat_of_ne {names : List String} {name other : String} (h : other ≠ name) :
    (names ++ [name]).count other = names.count other := by
  simp [List.count_append, Ne.symm h]

/-- Whoever names a directory again takes it from those that are named once. -/
theorem countP_again {names : List String} {name : String} (hname : name ∈ names)
    (es : Ordered (RegistryEntry α)) :
    es.countP (isFromSingle names) = es.countP (isFromSingle (names ++ [name])) +
      if names.count name = 1 then es.countP (isFrom name) else 0 := by
  have hpos : 0 < names.count name := List.count_pos_iff.mpr hname
  induction es with
  | nil => simp
  | cons e es ih =>
      rw [List.countP_cons, List.countP_cons, List.countP_cons, ih]
      cases hsource : e.2.source with
      | none =>
          have hsingle : ∀ names : List String, isFromSingle names e = false :=
            fun names => by rw [isFromSingle, hsource, Option.any_none]
          have hfrom : isFrom name e = false := by rw [isFrom, hsource]; rfl
          simp [hsingle, hfrom]
      | some other =>
          rw [isFromSingle_of_source hsource, isFromSingle_of_source hsource]
          by_cases hother : other = name
          · subst hother
            have hfrom : isFrom other e = true := isFrom_iff.mpr hsource
            have hmore : (names ++ [other]).count other = names.count other + 1 := by simp
            rw [hfrom, hmore]
            by_cases hone : names.count other = 1
            · simp [hone]
              omega
            · simp [hone]
              omega
          · have hfrom : isFrom name e = false := by
              rw [← Bool.not_eq_true, isFrom_iff, hsource, Option.some.injEq]
              exact hother
            rw [hfrom, count_concat_of_ne hother]
            simp
            omega

/-- A directory that is named again leaves the registry as it is, and loses its count. -/
theorem Tally.again (h : Tally kind t visited es counts) (hplain : ∀ p ∈ visited, PlainPath p)
    (hd : PlainPath d) (hname : (t.resolve d).text ∈ reportedNames t visited) :
    Tally kind t (visited ++ [d]) es (Ordered.insert counts (t.resolve d).text 0) := by
  have hnothing := h.nothing hplain hd hname
  have hmem : ∀ name, name ∈ reportedNames t visited ++ [(t.resolve d).text] ↔
      name ∈ reportedNames t visited := by
    intro name
    rw [List.mem_append, List.mem_singleton, or_iff_left_of_imp]
    rintro rfl
    exact hname
  refine ⟨?_, ?_, ?_, ?_, ?_⟩
  · exact List.forall_mem_append.mpr ⟨h.present, List.forall_mem_singleton.mpr hnothing⟩
  · intro e he
    obtain ⟨name, hvisited, hsource⟩ := h.sources e he
    rw [reportedNames_concat]
    exact ⟨name, (hmem name).mpr hvisited, hsource⟩
  · intro name hvisited
    rw [reportedNames_concat] at hvisited ⊢
    rw [hmem] at hvisited
    rw [Ordered.get?_insert]
    by_cases heq : name = (t.resolve d).text
    · subst heq
      have htwice :
          ¬ (reportedNames t visited ++ [(t.resolve d).text]).count (t.resolve d).text = 1 := by
        have hpos := List.count_pos_iff.mpr hname
        rw [List.count_append, List.count_singleton_self]
        omega
      rw [if_pos (beq_self_eq_true _), if_neg htwice]
    · rw [if_neg (by simpa using heq), count_concat_of_ne heq, h.count name hvisited]
  · intro name hvisited
    rw [reportedNames_concat, hmem] at hvisited
    have hne : name ≠ (t.resolve d).text := by
      rintro rfl
      exact hvisited hname
    rw [Ordered.get?_insert, if_neg (by simpa using hne), h.unnamed name hvisited]
  · have hsum := sum_values_insert counts (t.resolve d).text 0
    rw [h.count _ hname, Option.getD_some, h.total, countP_again hname] at hsum
    rw [reportedNames_concat]
    omega

/-- A directory that is named for the first time is counted by what it adds. -/
theorem Tally.first (h : Tally kind t visited es counts) {added : Ordered (RegistryEntry α)}
    (hadds : Adds (t.resolve d).text (validEntries kind t (offersOf t d)) es added)
    (hname : (t.resolve d).text ∉ reportedNames t visited) :
    Tally kind t (visited ++ [d]) (es ++ added)
      (Ordered.insert counts (t.resolve d).text added.length) := by
  have hother : ∀ name ∈ reportedNames t visited, name ≠ (t.resolve d).text := by
    rintro name hvisited rfl
    exact hname hvisited
  have hcount : ∀ name ∈ reportedNames t visited,
      (reportedNames t visited ++ [(t.resolve d).text]).count name =
        (reportedNames t visited).count name :=
    fun name hvisited => count_concat_of_ne (hother name hvisited)
  have hself : (reportedNames t visited ++ [(t.resolve d).text]).count (t.resolve d).text = 1 := by
    rw [List.count_append, List.count_eq_zero_of_not_mem hname, List.count_singleton_self]
  refine ⟨?_, ?_, ?_, ?_, ?_⟩
  · refine List.forall_mem_append.mpr ⟨fun p hp e he => ?_,
      List.forall_mem_singleton.mpr hadds.present⟩
    rw [keys_append]
    exact List.mem_append_left _ (h.present p hp e he)
  · rw [reportedNames_concat]
    refine List.forall_mem_append.mpr ⟨fun e he => ?_, fun e he => ?_⟩
    · obtain ⟨name, hvisited, hsource⟩ := h.sources e he
      exact ⟨name, List.mem_append_left _ hvisited, hsource⟩
    · exact ⟨_, List.mem_append_right _ (List.mem_singleton_self _), hadds.sources e he⟩
  · intro name hvisited
    rw [reportedNames_concat] at hvisited ⊢
    rw [Ordered.get?_insert, List.countP_append]
    rcases List.mem_append.mp hvisited with hvisited | hnew
    · -- what is added comes from another directory
      have hnone : added.countP (isFrom name) = 0 := by
        refine List.countP_eq_zero.mpr fun e he hfrom => ?_
        rw [isFrom_iff, hadds.sources e he, Option.some.injEq] at hfrom
        exact hother name hvisited hfrom.symm
      rw [if_neg (by simpa using hother name hvisited), hcount name hvisited, hnone, Nat.add_zero,
        h.count name hvisited]
    · obtain rfl := List.mem_singleton.mp hnew
      -- what was there comes from other directories
      have hnone : es.countP (isFrom (t.resolve d).text) = 0 := by
        refine List.countP_eq_zero.mpr fun e he hfrom => ?_
        obtain ⟨name, hvisited, hsource⟩ := h.sources e he
        rw [isFrom_iff, hsource, Option.some.injEq] at hfrom
        exact hother name hvisited hfrom
      have hall : added.countP (isFrom (t.resolve d).text) = added.length :=
        List.countP_eq_length.mpr fun e he => isFrom_iff.mpr (hadds.sources e he)
      rw [if_pos (beq_self_eq_true _), hself, if_pos rfl, hnone, hall, Nat.zero_add]
  · intro name hvisited
    rw [reportedNames_concat, List.mem_append, List.mem_singleton, not_or] at hvisited
    rw [Ordered.get?_insert, if_neg (by simpa using hvisited.2), h.unnamed name hvisited.1]
  · have hsum := sum_values_insert counts (t.resolve d).text added.length
    rw [h.unnamed _ hname, Option.getD_none, Nat.add_zero, h.total] at hsum
    have hold : es.countP (isFromSingle (reportedNames t visited ++ [(t.resolve d).text])) =
        es.countP (isFromSingle (reportedNames t visited)) := by
      refine List.countP_congr fun e he => ?_
      obtain ⟨name, hvisited, hsource⟩ := h.sources e he
      rw [isFromSingle_of_source hsource, isFromSingle_of_source hsource, hcount name hvisited]
    have hall : added.countP (isFromSingle (reportedNames t visited ++ [(t.resolve d).text])) =
        added.length := by
      refine List.countP_eq_length.mpr fun e he => ?_
      rw [isFromSingle_of_source (hadds.sources e he), hself]
      rfl
    rw [hsum, reportedNames_concat, List.countP_append, hold, hall]

/-- **Visiting one more directory keeps the tally.** -/
theorem Tally.visit (h : Tally kind t visited es counts) (hplain : ∀ p ∈ visited, PlainPath p)
    (hd : PlainPath d) {added : Ordered (RegistryEntry α)}
    (hadds : Adds (t.resolve d).text (validEntries kind t (offersOf t d)) es added) :
    Tally kind t (visited ++ [d]) (es ++ added)
      (Ordered.insert counts (t.resolve d).text added.length) := by
  by_cases hname : (t.resolve d).text ∈ reportedNames t visited
  · obtain rfl := hadds.nothing (h.nothing hplain hd hname)
    rw [List.append_nil]
    exact h.again hplain hd hname
  · exact h.first hadds hname

end Visit

/-- **So does a whole load.** -/
theorem Tally.loadEach {visited directories : List Formwork.Path} {r r' : Registry α}
    {counts counts' : Ordered Nat} (h : Tally kind t visited r.entries counts)
    (hplain : ∀ p ∈ visited ++ directories, PlainPath p)
    (hload : Registry.loadEach kind t .skip directories r counts = (r', .ok counts')) :
    Tally kind t (visited ++ directories) r'.entries counts' := by
  induction directories generalizing visited r counts with
  | nil =>
      cases hload
      rwa [List.append_nil]
  | cons d ds ih =>
      have hquiet := loadEach_quiet hload
      rw [List.flatMap_cons, List.forall_mem_append] at hquiet
      have hfiles : ∀ p ∈ documentsOf t d, Uninterrupted t p :=
        fun p hp => hquiet.1 ⟨(t.resolve d).text, p⟩ (List.mem_map_of_mem hp)
      obtain ⟨middle, added, hadds, hentries, hadded⟩ : ∃ middle added,
          Adds (t.resolve d).text (validEntries kind t (offersOf t d)) r.entries added ∧
            middle.entries = r.entries ++ added ∧
            Registry.loadFiles kind t .skip (t.resolve d).text (documentsOf t d) r 0 =
              (middle, .ok (0 + added.length)) := loadFiles_adds hfiles r 0
      rw [loadEach_cons, hadded, Nat.zero_add] at hload
      have hvisited : ∀ p ∈ visited, PlainPath p :=
        fun p hp => hplain p (List.mem_append_left _ hp)
      have hd : PlainPath d := hplain d (List.mem_append_right _ (List.mem_cons_self ..))
      rw [← List.singleton_append, ← List.append_assoc] at hplain ⊢
      exact ih (hentries ▸ h.visit hvisited hd hadds) hplain hload

/-- **The counts of a load.** A load of directories into an empty registry, in which the first
document with an id counts, succeeds if there is a directory and nothing interrupts. Each directory
is then reported with what its last visit added: with the documents that come from it if it is named
once, and with none if it is named again, in this or another spelling. So the counts add up to the
documents from directories that are named once, and to all of them if there are no others. -/
theorem load_counts (kind : RegistryKind α) (t : FileTree) (texts : List String) :
    let directories := texts.map Formwork.Path.ofText
    let names := reportedNames t directories
    let load := Registry.loadDirectories kind t .skip directories .empty
    (Succeeds load ↔
        texts ≠ [] ∧ ∀ o ∈ directories.flatMap (offersOf t), Uninterrupted t o.path) ∧
      ∀ counts source, load.2 = .ok (.ok counts source) →
        (∀ name ∈ names, Ordered.get? counts name =
          some (if names.count name = 1 then load.1.entries.countP (isFrom name) else 0)) ∧
        (Ordered.values counts).sum = load.1.entries.countP (isFromSingle names) ∧
        ((Ordered.values counts).sum = load.1.size ↔
          ∀ e ∈ load.1.entries, ∃ name, e.2.source = some name ∧ names.count name = 1) ∧
        (names.Nodup → (Ordered.values counts).sum = load.1.size) := by
  intro directories names load
  have hplain : ∀ p ∈ directories, PlainPath p := by
    intro p hp
    obtain ⟨s, -, rfl⟩ := List.mem_map.mp hp
    exact plainPath_ofText s
  refine ⟨?_, fun counts source hcounts => ?_⟩
  · have hsucceeds : Succeeds (Registry.loadDirectories kind t .skip directories .empty) ↔
        directories ≠ [] ∧ ∀ o ∈ directories.flatMap (offersOf t), Uninterrupted t o.path :=
      (loadDirectories_loadsBy (by decide) directories .empty).1
    rwa [show directories ≠ [] ↔ texts ≠ [] by rw [ne_eq, List.map_eq_nil_iff]] at hsucceeds
  · have hsome : directories.isEmpty = false := by
      rw [List.isEmpty_eq_false_iff]
      intro hnone
      have hfails : load.2 = .ok (LoadError.noDirectories.toResult none) := by
        show (Registry.loadDirectories kind t .skip directories .empty).2 = _
        rw [hnone]
        rfl
      rw [hcounts] at hfails
      have hsuccess : (LoadError.noDirectories.toResult none : LoadResult (Ordered Nat)).isSuccess =
          false := isSuccess_toResult _ _
      rw [← Except.ok.inj hfails] at hsuccess
      cases hsuccess
    have hload : load = ((Registry.loadEach kind t .skip directories .empty []).1,
        LoadStop.toResult (Registry.loadEach kind t .skip directories .empty []).2) := by
      show Registry.loadDirectories kind t .skip directories .empty = _
      rw [Registry.loadDirectories, hsome, if_neg Bool.false_ne_true]
    rw [hload] at hcounts ⊢
    obtain ⟨counts', hcounts'⟩ := succeeds_toResult_iff.mp ⟨_, hcounts, rfl⟩
    rw [hcounts'] at hcounts
    cases hcounts
    have htally : Tally kind t directories _ counts :=
      tally_empty.loadEach hplain (Prod.ext rfl hcounts')
    have hall : (Ordered.values counts).sum =
        (Registry.loadEach kind t .skip directories .empty []).1.size ↔
        ∀ e ∈ (Registry.loadEach kind t .skip directories .empty []).1.entries,
          ∃ name, e.2.source = some name ∧ names.count name = 1 := by
      rw [htally.total, ← length_entries_eq_size, List.countP_eq_length]
      refine forall₂_congr fun e he => ?_
      rw [isFromSingle, Option.any_eq_true]
      simp only [beq_iff_eq]
      rfl
    refine ⟨htally.count, htally.total, hall, fun hnd => hall.mpr fun e he => ?_⟩
    obtain ⟨name, hname, hsource⟩ := htally.sources e he
    exact ⟨name, hsource, by rw [hnd.count, if_pos hname]⟩

end Counting

/-! ## A directory given twice -/

/-- What a registry holds of two files with one id. -/
def rivalsLoaded : Registry Form := ⟨[("b", titledB)], [("b", "/forms")]⟩

/-- The first of the files is stored, unless the id is taken. -/
theorem loadFiles_rivalFiles :
    Registry.loadFiles formRegistry rivalFiles .skip "/forms"
        (documentsOf rivalFiles formsDirectory) .empty 0 = (rivalsLoaded, .ok 1) ∧
      Registry.loadFiles formRegistry rivalFiles .skip "/forms"
        (documentsOf rivalFiles formsDirectory) rivalsLoaded 0 = (rivalsLoaded, .ok 0) := by
  have hfirst : Registry.candidate? formRegistry rivalFiles ⟨true, ["forms", "a.yaml"]⟩ =
      .ok (some ("b", titledB)) := by
    rw [candidate?_of_uninterrupted formRegistry _ (uninterrupted_of_taken taken?_titledB),
      taken?_titledB]
    rfl
  have hsecond : Registry.candidate? formRegistry rivalFiles ⟨true, ["forms", "b.yaml"]⟩ =
      .ok (some ("b", formB)) := by
    rw [rivalFiles, candidate?_of_uninterrupted formRegistry _
      (uninterrupted_of_taken (taken?_formB _)), taken?_formB]
    rfl
  have hdocuments : documentsOf rivalFiles formsDirectory =
      [⟨true, ["forms", "a.yaml"]⟩, ⟨true, ["forms", "b.yaml"]⟩] := documentsOf_twoFiles _
  rw [hdocuments]
  refine ⟨?_, ?_⟩
  · rw [Registry.loadFiles, hfirst]
    show Registry.loadFiles _ _ _ _ _ rivalsLoaded 1 = _
    rw [Registry.loadFiles, hsecond]
    rfl
  · rw [Registry.loadFiles, hfirst]
    show Registry.loadFiles _ _ _ _ _ rivalsLoaded 0 = _
    rw [Registry.loadFiles, hsecond]
    rfl

theorem ofText_forms : Formwork.Path.ofText "/forms" = formsDirectory := by decide

theorem text_forms : (rivalFiles.resolve formsDirectory).text = "/forms" := by decide

/-- The form is counted for its directory, and a directory that is not there has none. -/
theorem load_counts_forms :
    let load := Registry.loadDirectories formRegistry rivalFiles .skip
      (["/forms", "/missing"].map Formwork.Path.ofText) .empty
    let counts := [("/forms", 1), ("/missing", 0)]
    load.2 = .ok (.ok counts none) ∧ (Ordered.values counts).sum = load.1.size := by
  intro load counts
  have hcounts : load.2 = .ok (.ok counts none) := by
    have hmissing : documentsOf rivalFiles (Formwork.Path.ofText "/missing") = [] := by
      have hnone : rivalFiles.isDirectory
          (rivalFiles.resolve (Formwork.Path.ofText "/missing")) = false := by
        decide
      rw [documentsOf, hnone, if_neg Bool.false_ne_true]
    have hname : (rivalFiles.resolve (Formwork.Path.ofText "/missing")).text = "/missing" := by
      decide
    show (Registry.loadDirectories formRegistry rivalFiles .skip
      [Formwork.Path.ofText "/forms", Formwork.Path.ofText "/missing"] .empty).2 = _
    rw [Registry.loadDirectories, if_neg (by decide), loadEach_cons, ofText_forms, text_forms,
      loadFiles_rivalFiles.1]
    dsimp only
    rw [loadEach_cons, hmissing, hname]
    rfl
  refine ⟨hcounts, ((load_counts formRegistry rivalFiles ["/forms", "/missing"]).2 counts none
    hcounts).2.2.2 ?_⟩
  decide

/-- A directory that is given twice is reported with nothing, although a form was stored. -/
theorem load_counts_lost :
    let load := Registry.loadDirectories formRegistry rivalFiles .skip
      (["/forms", "/forms"].map Formwork.Path.ofText) .empty
    load = (rivalsLoaded, .ok (.ok [("/forms", 0)] none)) ∧
      (Ordered.values [("/forms", 0)]).sum ≠ load.1.size := by
  intro load
  have hload : load = (rivalsLoaded, .ok (.ok [("/forms", 0)] none)) := by
    show Registry.loadDirectories formRegistry rivalFiles .skip
      [Formwork.Path.ofText "/forms", Formwork.Path.ofText "/forms"] .empty = _
    rw [Registry.loadDirectories, if_neg (by decide), loadEach_cons, ofText_forms, text_forms,
      loadFiles_rivalFiles.1]
    dsimp only
    rw [loadEach_cons, text_forms, loadFiles_rivalFiles.2]
    rfl
  rw [hload]
  exact ⟨rfl, by decide⟩

end Formwork.Proofs
