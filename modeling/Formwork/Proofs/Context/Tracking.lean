import Formwork.Proofs.Context.Unchanged

/-!
# A case context tracks its discriminants

An update writes the values of the discriminants that are found among form values with a case
value (`Finds`), and nothing else. It only looks at the form values under the ids of the
discriminants, and taken twice it comes to the same. A change is seen when some value that is
written does not show what the context showed before.

What an attribute shows keeps booleans apart from numbers by itself and among the items of a
list. Deeper inside a value, true still counts as one.
-/

namespace Formwork.Proofs

open Formwork CaseContext

/-- The field is found among form values with a case value. -/
def Finds (values : Members) (d : Field) (v : Value) : Prop :=
  fieldValue? values d.id = .ok (some v) ∧ v.isCaseValue = true

/-- The lookups of discriminants all answer. -/
def Answers (values : Members) (discriminants : List Field) : Prop :=
  ∀ d ∈ discriminants, ∃ found?, fieldValue? values d.id = .ok found?

/-! ## What is found -/

section Found

variable {values written : Members} {discriminants : List Field}

/-- What is found depends on the lookups alone. -/
theorem found_congr {others : Members}
    (h : ∀ d ∈ discriminants, fieldValue? others d.id = fieldValue? values d.id) :
    found others discriminants = found values discriminants := by
  unfold found
  rw [mapM_congr fun d hd => by rw [h d hd]]

/-- **What is found are the case values of the discriminants.** -/
theorem found_answers (h : Answers values discriminants) :
    ∃ written, found values discriminants = .ok written ∧ ∀ entry,
      entry ∈ written ↔ ∃ d ∈ discriminants, d.id = entry.1 ∧ Finds values d entry.2 := by
  choose! found? hfound using h
  have hsteps : discriminants.mapM (fun d => do .ok (d.id, ← fieldValue? values d.id)) =
      (.ok (discriminants.map fun d => (d.id, found? d)) : Except NumberFault _) := by
    refine mapM_ok_of_forall fun d hd => ?_
    rw [hfound d hd]
    rfl
  refine ⟨_, by rw [found, hsteps]; rfl, fun entry => ?_⟩
  obtain ⟨id, v⟩ := entry
  simp only [List.mem_filterMap, List.mem_map, Option.map_eq_some_iff, Option.filter_eq_some_iff]
  constructor
  · rintro ⟨_, ⟨d, hd, rfl⟩, w, ⟨hw, hcase⟩, heq⟩
    cases heq
    exact ⟨d, hd, rfl, (hfound d hd).trans (congrArg Except.ok hw), hcase⟩
  · rintro ⟨d, hd, rfl, hlook, hcase⟩
    exact ⟨_, ⟨d, hd, rfl⟩, v, ⟨Except.ok.inj ((hfound d hd).symm.trans hlook), hcase⟩, rfl⟩

/-- Where a lookup fails, nothing is found at all. -/
theorem found_fails (h : ¬Answers values discriminants) :
    ∃ fault, found values discriminants = .error fault := by
  cases hfound : found values discriminants with
  | error fault => exact ⟨fault, rfl⟩
  | ok written =>
      obtain ⟨entries, hentries, -⟩ := bind_eq_ok.mp hfound
      refine absurd (fun d hd => ?_) h
      obtain ⟨_, -, hd⟩ := exists_mem_of_mapM hentries hd
      obtain ⟨found?, hfound?, -⟩ := bind_eq_ok.mp hd
      exact ⟨found?, hfound?⟩

/-- Under the id of a discriminant, what is found is what is written. -/
theorem get?_found
    (h : ∀ entry, entry ∈ written ↔ ∃ d ∈ discriminants, d.id = entry.1 ∧ Finds values d entry.2)
    {d : Field} (hd : d ∈ discriminants) {v : Value} (hfinds : Finds values d v)
    (context : Members) : Ordered.get? (Ordered.insertAll context written) d.id = some v := by
  have hkey : d.id ∈ Ordered.keys written :=
    List.mem_map.mpr ⟨(d.id, v), (h (d.id, v)).mpr ⟨d, hd, rfl, hfinds⟩, rfl⟩
  obtain ⟨w, hw⟩ := get?_written hkey
  -- Whatever discriminant the value was written for, the id leads to one value.
  have hmem : (d.id, w) ∈ written := mem_of_ofList (mem_of_get? (hw []))
  obtain ⟨d', -, hid, hfinds'⟩ := (h (d.id, w)).mp hmem
  have heq : fieldValue? values d.id = .ok (some w) := by
    rw [← hfinds'.1]
    exact congrArg (fieldValue? values) hid.symm
  rw [hfinds.1] at heq
  rw [hw context, ← Option.some.inj (Except.ok.inj heq)]

end Found

/-! ## What an update does -/

/-- What an update of a context comes to, and when it is a change. -/
structure Tracks (context values : Members) (discriminants : List Field) (updated : Members)
    (changed : Bool) : Prop where
  /-- The context keeps what no discriminant is found for. -/
  frame : ∀ key, (∀ d ∈ discriminants, d.id = key → ∀ v, ¬Finds values d v) →
    Ordered.get? updated key = Ordered.get? context key
  /-- It holds what is found. -/
  tracked : ∀ d ∈ discriminants, ∀ v, Finds values d v → Ordered.get? updated d.id = some v
  /-- Only the lookups of discriminants count. -/
  lookups : ∀ others, (∀ d ∈ discriminants, fieldValue? others d.id = fieldValue? values d.id) →
    update context others discriminants = .ok updated
  /-- The same update again changes nothing. -/
  again : update updated values discriminants = .ok updated
  /-- It is a change when something is found that shows what the context did not show. -/
  changed_iff : changed = true ↔ ∃ d ∈ discriminants, ∃ v, Finds values d v
    ∧ ∀ w, Ordered.get? context d.id = some w → face w ≠ face v

/-- An edit of a context without NaN says whether the context has changed. -/
theorem edit_eq {context values : Members} {discriminants : List Field}
    (hcontext : ProperContext context) (hanswers : Answers values discriminants) :
    ∃ updated, update context values discriminants = .ok updated
      ∧ edit context values discriminants = .ok (updated, hasChanged context updated) := by
  obtain ⟨written, hfound, -⟩ := found_answers hanswers
  refine ⟨_, by rw [update, hfound]; rfl, ?_⟩
  rw [← differsAt_written hcontext, edit, hfound]
  rfl

/-- A written value is a change unless the context held one that shows the same. -/
theorem attributeDiffers_written {held? : Option Value} {v : Value}
    (hheld : ∀ w ∈ held?, Keyed w) (hv : Proper v) :
    attributeDiffers held? (some v) = true ↔ ∀ w, held? = some w → face w ≠ face v := by
  have hproper : ∀ w ∈ some v, Proper w := by
    rintro w ⟨⟩
    exact hv
  rw [← Bool.not_eq_false, attributeDiffers_eq_false_iff hheld hproper]
  cases held? with
  | none => simp
  | some w => simp

/--
**A case context tracks its discriminants and nothing else.**

For all form values without NaN under which no lookup fails, and whatever the context is, the update
answers and comes to what `Tracks` says. An edit sees by what it has written whether it is a change;
comparing whole contexts says the same, if the context had no NaN.
-/
theorem context_tracks {context values : Members} {discriminants : List Field}
    (hcontext : KeyedContext context) (hvalues : Proper (.object values))
    (hanswers : Answers values discriminants) :
    ∃ updated changed, update context values discriminants = .ok updated
      ∧ edit context values discriminants = .ok (updated, changed)
      ∧ (ProperContext context → hasChanged context updated = changed)
      ∧ Tracks context values discriminants updated changed := by
  obtain ⟨written, hfound, hwritten⟩ := found_answers hanswers
  have hupdate : ∀ held, update held values discriminants = .ok (Ordered.insertAll held written) :=
    fun held => by rw [update, hfound]; rfl
  have htracked : ∀ d ∈ discriminants, ∀ v, Finds values d v →
      Ordered.get? (Ordered.insertAll context written) d.id = some v :=
    fun d hd v hfinds => get?_found hwritten hd hfinds context
  refine ⟨_, _, hupdate context, by rw [edit, hfound]; rfl,
    fun hproper => (differsAt_written hproper).symm, ?_⟩
  constructor
  case tracked => exact htracked
  case frame =>
    intro key hkey
    refine get?_unwritten (fun hmem => ?_) context
    obtain ⟨entry, hentry, rfl⟩ := List.mem_map.mp hmem
    obtain ⟨d, hd, hid, hfinds⟩ := (hwritten entry).mp hentry
    exact hkey d hd hid _ hfinds
  case lookups =>
    intro others hothers
    rw [update, found_congr hothers]
    exact hupdate context
  case again =>
    rw [hupdate, insertAll_self]
    intro entry hentry
    obtain ⟨d, hd, hid, hfinds⟩ := (hwritten entry).mp hentry
    rw [← hid]
    exact htracked d hd _ hfinds
  case changed_iff =>
    have hproper := found_proper hvalues hfound
    rw [differsAt, List.any_eq_true]
    constructor
    · rintro ⟨key, hkey, hdiffers⟩
      obtain ⟨entry, hentry, rfl⟩ := List.mem_map.mp hkey
      obtain ⟨d, hd, hid, hfinds⟩ := (hwritten entry).mp hentry
      rw [← hid, htracked d hd _ hfinds, attributeDiffers_written (hcontext.get? d.id)
        (hproper entry hentry)] at hdiffers
      exact ⟨d, hd, entry.2, hfinds, hdiffers⟩
    · rintro ⟨d, hd, v, hfinds, hface⟩
      have hentry : (d.id, v) ∈ written := (hwritten (d.id, v)).mpr ⟨d, hd, rfl, hfinds⟩
      refine ⟨d.id, List.mem_map.mpr ⟨_, hentry, rfl⟩, ?_⟩
      rw [htracked d hd v hfinds, attributeDiffers_written (hcontext.get? d.id)
        (hproper _ hentry)]
      exact hface

/-- What is known of a case. The score has been lost. -/
def knownCase : Members := [("tags", .list [.bool true]), ("score", .float .nan)]

/-- Form values of which one is inside another, and one is no case value. -/
def toldValues : Members :=
  [("tags", .list [.int 1]), ("who", .object [("name", .str "Ada")]), ("plan", .object [])]

/-- The fields that decide. The score is not among the form values. -/
def decidingFields : List Field :=
  [textField "tags", textField "who.name", textField "plan", textField "score"]

/-- The tag is a number now, and the name is known; the plan is not taken over and the score not
touched. -/
theorem context_tracks_told :
    KeyedContext knownCase ∧ Proper (.object toldValues) ∧ Answers toldValues decidingFields
      ∧ ∃ updated, update knownCase toldValues decidingFields = .ok updated
        ∧ edit knownCase toldValues decidingFields = .ok (updated, true)
        ∧ Ordered.get? updated "who.name" = some (.str "Ada")
        ∧ Ordered.get? updated "plan" = none
        ∧ Ordered.get? updated "score" = some (.float .nan)
        ∧ update updated toldValues decidingFields = .ok updated := by
  have hknown : KeyedContext knownCase := by
    intro e he
    rcases List.mem_pair.mp he with rfl | rfl <;> simp [Keyed, KeyedItems]
  have htold : Proper (.object toldValues) := by
    simp [toldValues, Proper, ProperMembers, ProperItems, Ordered.keys]
  have hlookups : fieldValue? toldValues "tags" = .ok (some (.list [.int 1]))
      ∧ fieldValue? toldValues "who.name" = .ok (some (.str "Ada"))
      ∧ fieldValue? toldValues "plan" = .ok (some (.object []))
      ∧ fieldValue? toldValues "score" = .ok none := ⟨rfl, rfl, rfl, rfl⟩
  obtain ⟨htags, hwho, hplan, hscore⟩ := hlookups
  have hanswers : Answers toldValues decidingFields := by
    simp [Answers, decidingFields, textField, htags, hwho, hplan, hscore]
  obtain ⟨updated, changed, hupdate, hedit, -, htracks⟩ := context_tracks hknown htold hanswers
  have hchanged : changed = true :=
    htracks.changed_iff.mpr ⟨textField "tags", by simp [decidingFields], _, ⟨htags, rfl⟩, by
      rintro _ ⟨⟩
      simp [face, mark, Value.isBool]⟩
  subst hchanged
  refine ⟨hknown, htold, hanswers, updated, hupdate, hedit,
    htracks.tracked (textField "who.name") (by simp [decidingFields]) _ ⟨hwho, rfl⟩,
    htracks.frame "plan" ?_, htracks.frame "score" ?_, htracks.again⟩
  · simp [decidingFields, textField, Finds, hplan, Value.isCaseValue]
  · simp [decidingFields, textField, Finds, hscore]

/-- Inside an item of a list, a boolean is taken for the number that it counts as: there is a
difference as long as booleans are no numbers, and no change. -/
theorem nested_truth_unnoticed :
    let context : Members := [("tags", .list [.list [.bool true]])]
    let values : Members := [("tags", .list [.list [.int 1]])]
    Answers values [textField "tags"]
      ∧ update context values [textField "tags"] = .ok values
      ∧ edit context values [textField "tags"] = .ok (values, false)
      ∧ ¬(hasChanged context values = true ↔ ∃ d ∈ [textField "tags"], ∃ v, Finds values d v
        ∧ ∀ w, Ordered.get? context d.id = some w → strictMeaning w ≠ strictMeaning v) := by
  intro context values
  have htags : fieldValue? values "tags" = .ok (some (.list [.list [.int 1]])) := rfl
  have hsame : hasChanged context values = false := by decide
  refine ⟨by simp [Answers, textField, htags], rfl, ?_, fun hiff => ?_⟩
  · have hedit : edit context values [textField "tags"] =
        .ok (values, differsAt ["tags"] context values) := rfl
    rw [hedit, show differsAt ["tags"] context values = false by decide]
  · have hdiffers : hasChanged context values = true := by
      refine hiff.mpr ⟨textField "tags", List.mem_singleton_self _, _, ⟨htags, rfl⟩, ?_⟩
      rintro _ ⟨⟩
      simp [strictMeaning, meaningWith, itemMeanings]
    rw [hsame] at hdiffers
    cases hdiffers

end Formwork.Proofs
