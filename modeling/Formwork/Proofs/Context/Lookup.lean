import Formwork.Context.Case
import Formwork.Proofs.Number.Numeric
import Formwork.Proofs.Values.ErrorTree

/-!
# What a dotted path leads to

The parts of a path lead from a value to another (`Leads`): through objects by key, and through
lists by the position that is written in decimal digits. A part that looks like digits without
being a position is refused where it is asked of a list (`Unreadable`): it holds another form of a
digit, such as a superscript, or more digits than an integer may have. A look-up ends with the value
or the error that its path leads to, or without any, unless there is such a part on its way
(`lookups_by_parts`).
-/

namespace Formwork.Proofs

open Formwork Formwork.Text Formwork.ErrorTree

/-! ## The look-ups -/

/-- The position that a part names: its digits, of any script, in decimal. -/
def Position (part : String) (i : Nat) : Prop :=
  Digits part.toList ∧ i = Numeral.ofDigits (part.toList.filterMap digitValue?)

/-- A part that consists of forms of digits and is not read as an integer. -/
inductive Unreadable (part : String) : NumberFault → Prop where
  | form : part.toList ≠ [] → (∀ c ∈ part.toList, isDigitForm c = true) →
      (∃ c ∈ part.toList, isDecimal c = false) → Unreadable part (.notAnInteger part)
  | long : Digits part.toList → Numeral.maxDigits < part.toList.length →
      Unreadable part (.integerTooLong part.toList.length)

/-- One part leads from a value to one that it holds. -/
inductive Next : Value → String → Value → Prop where
  | key {ms : Members} {part : String} {v : Value} :
      Ordered.get? ms part = some v → Next (.object ms) part v
  | item {items : List Value} {part : String} {i : Nat} {v : Value} :
      Position part i → items[i]? = some v → Next (.list items) part v

/-- Parts lead from a value to one within it. -/
inductive Leads : Value → List String → Value → Prop where
  | here {v : Value} : Leads v [] v
  | step {v w x : Value} {part : String} {rest : List String} :
      Next v part w → Leads w rest x → Leads v (part :: rest) x

/-- A list is asked for an item by a part that cannot be read. -/
def RefusesPart (v : Value) (part : String) (fault : NumberFault) : Prop :=
  ∃ items, v = .list items ∧ Unreadable part fault

/-- Parts come to a list that refuses the next of them. -/
inductive Breaks : Value → List String → NumberFault → Prop where
  | here {v : Value} {part : String} {rest : List String} {fault : NumberFault} :
      RefusesPart v part fault → Breaks v (part :: rest) fault
  | later {v w : Value} {part : String} {rest : List String} {fault : NumberFault} :
      (∀ e, ¬ RefusesPart v part e) → Next v part w → Breaks w rest fault →
      Breaks v (part :: rest) fault

/-- The value under a path: that of the path as a key, else the one that its parts lead to. -/
def ValueAt (values : Members) (path : String) (v : Value) : Prop :=
  Ordered.get? values path = some v ∨
    Ordered.get? values path = none ∧ Leads (.object values) (pathParts path) v

/-- An error: an object with a message. -/
def IsError (v : Value) (e : Members) : Prop :=
  v = .object e ∧ messageKey ∈ Ordered.keys e

/-- The error that has the path as its key. -/
def KeyedError (errors : Members) (path : String) (e : Members) : Prop :=
  ∃ v, Ordered.get? errors path = some v ∧ IsError v e

/-- The error under a path that is not empty: the one that has it as its key, else the one that its
parts lead to. -/
def ErrorAt (errors : Members) (path : String) (e : Members) : Prop :=
  path ≠ "" ∧ (KeyedError errors path e ∨
    (∀ e', ¬ KeyedError errors path e') ∧
      ∃ v, Leads (.object errors) (pathParts path) v ∧ IsError v e)

/-! ## Positions -/

section Positions

variable {part : String} {cs : List Char} {fault : NumberFault} {i : Nat}

/-- No other form of a digit is among the blanks either. -/
theorem not_isBlank_of_isDigitForm {c : Char} (h : isDigitForm c = true) : isBlank c = false := by
  have hapart : ∀ f ∈ digitFormRanges,
      128 ≤ f.1 ∧ ∀ r ∈ wideBlankRanges, r.2 < f.1 ∨ f.2 < r.1 := by decide
  by_cases hblank : isBlank c = true
  · have hdecimal := isDecimal_of_isBlank hblank
    rw [isDigitForm, hdecimal, Bool.false_or] at h
    simp only [isBlank, inRanges, Bool.or_eq_true, Bool.and_eq_true, decide_eq_true_eq,
      List.any_eq_true] at h hblank
    obtain ⟨f, hf, hform⟩ := h
    obtain ⟨hwide, hranges⟩ := hapart f hf
    rcases hblank with (hascii | hascii) | ⟨-, r, hr, hrange⟩
    · omega
    · omega
    · have := hranges r hr
      omega
  · rwa [Bool.not_eq_true] at hblank

theorem isDigits_eq_true_iff :
    isDigits cs = true ↔ cs ≠ [] ∧ ∀ c ∈ cs, isDigitForm c = true := by
  rw [isDigits, Bool.and_eq_true, Bool.not_eq_true', List.isEmpty_eq_false_iff, List.all_eq_true]

theorem Digits.isDigits (h : Digits cs) : isDigits cs = true := by
  refine isDigits_eq_true_iff.mpr ⟨h.nonempty, fun c hc => ?_⟩
  rw [isDigitForm, h.decimal c hc, Bool.true_or]

/-- Forms of digits are read as they are, without a sign or blanks around them. -/
theorem splitSign_digitForms (hne : cs ≠ []) (h : ∀ c ∈ cs, isDigitForm c = true) :
    Numeral.splitSign (trimBy isNumeralBlank cs) = (false, cs) := by
  have hblank : ∀ c ∈ cs, isBlank c = false := fun c hc => not_isBlank_of_isDigitForm (h c hc)
  have htrim : trimBy isNumeralBlank cs = cs := by
    have hself := trimBy_trimBy (p := isBlank) (q := isNumeralBlank)
      (fun _ h => (Bool.and_eq_true_iff.mp h).1) cs
    rwa [show trimBy isBlank cs = cs from trim_eq_self hblank] at hself
  obtain ⟨c, rest, rfl⟩ := List.exists_cons_of_ne_nil hne
  have hc := h c (List.mem_cons_self ..)
  rw [htrim]
  refine splitSign_of_ne ?_ ?_ rest
  · rintro rfl
    exact absurd hc (by decide)
  · rintro rfl
    exact absurd hc (by decide)

/-- Digits are read as an integer, unless there are too many of them. -/
theorem readInt_digits (h : Digits part.toList) :
    Numeral.readInt part =
      if Numeral.maxDigits < part.toList.length then .tooLong part.toList.length
      else .int (Numeral.ofDigits (part.toList.filterMap digitValue?)) := by
  have hforms := (isDigits_eq_true_iff.mp h.isDigits).2
  have hlength := length_digitValues h.decimal
  have hne : part.toList.filterMap digitValue? ≠ [] := by
    rw [← List.length_pos_iff, hlength]
    exact List.length_pos_iff.mpr h.nonempty
  rw [Numeral.readInt, splitSign_digitForms h.nonempty hforms]
  dsimp only
  rw [digitRun_all h.decimal]
  obtain ⟨d, ds, hds⟩ := List.exists_cons_of_ne_nil hne
  rw [hds] at hlength ⊢
  dsimp only
  rw [hlength]
  rfl

/-- With another form of a digit among them there is no integer. -/
theorem readInt_form (hne : part.toList ≠ []) (h : ∀ c ∈ part.toList, isDigitForm c = true)
    (hform : ∃ c ∈ part.toList, isDecimal c = false) : Numeral.readInt part = .malformed := by
  obtain ⟨c, hc, hno⟩ := hform
  have hsplit := List.takeWhile_append_dropWhile (p := isDecimal) (l := part.toList)
  have hrest : part.toList.dropWhile isDecimal ≠ [] := by
    intro hnil
    rw [List.dropWhile_eq_nil_iff.mp hnil c hc] at hno
    cases hno
  have hend : EndsDigits (part.toList.dropWhile isDecimal) := by
    intro x hx
    have hhead := List.head_dropWhile_not isDecimal hrest
    rw [List.head?_eq_some_head hrest] at hx
    cases hx
    refine ⟨by simpa using hhead, ?_⟩
    intro hunderscore
    have := h _ ((List.dropWhile_sublist _).subset (List.head_mem hrest))
    rw [hunderscore] at this
    exact absurd this (by decide)
  have hfront : ∀ x ∈ part.toList.takeWhile isDecimal, isDecimal x = true :=
    fun x hx => List.mem_takeWhile_imp hx
  have hrun := digitRunAfter_decimals hfront hend false
  rw [hsplit] at hrun
  rw [Numeral.readInt, splitSign_digitForms hne h]
  dsimp only
  rw [Numeral.digitRun, hrun]
  obtain ⟨x, more, hmore⟩ := List.exists_cons_of_ne_nil hrest
  rw [hmore]
  cases (part.toList.takeWhile isDecimal).filterMap digitValue? <;> rfl

/-- A part of digits that are not too many is the position that it names. -/
theorem position?_digits (h : Digits part.toList)
    (hshort : part.toList.length ≤ Numeral.maxDigits) :
    position? part = .ok (some (Numeral.ofDigits (part.toList.filterMap digitValue?))) := by
  rw [position?, if_pos h.isDigits, readInt_digits h, if_neg (Nat.not_lt.mpr hshort)]
  rfl

theorem Unreadable.position? (h : Unreadable part fault) : position? part = .error fault := by
  cases h with
  | form hne hforms hform =>
      rw [Formwork.position?, if_pos (isDigits_eq_true_iff.mpr ⟨hne, hforms⟩),
        readInt_form hne hforms hform]
  | long hdigits hlong =>
      rw [Formwork.position?, if_pos hdigits.isDigits, readInt_digits hdigits, if_pos hlong]

/-- A part names a position, is refused or looks like no digits at all. -/
theorem position_cases (part : String) :
    (Digits part.toList ∧ part.toList.length ≤ Numeral.maxDigits) ∨
      (∃ fault, Unreadable part fault) ∨
      (position? part = .ok none ∧ ¬ Digits part.toList) := by
  by_cases hforms : isDigits part.toList = true
  · obtain ⟨hne, hall⟩ := isDigits_eq_true_iff.mp hforms
    by_cases hdecimal : ∀ c ∈ part.toList, isDecimal c = true
    · by_cases hlong : Numeral.maxDigits < part.toList.length
      · exact .inr (.inl ⟨_, .long ⟨hne, hdecimal⟩ hlong⟩)
      · exact .inl ⟨⟨hne, hdecimal⟩, Nat.not_lt.mp hlong⟩
    · simp only [not_forall, Bool.not_eq_true] at hdecimal
      obtain ⟨c, hc, hno⟩ := hdecimal
      exact .inr (.inl ⟨_, .form hne hall ⟨c, hc, hno⟩⟩)
  · refine .inr (.inr ⟨?_, fun h => hforms h.isDigits⟩)
    rw [position?, if_neg hforms]

theorem position?_eq_error_iff : position? part = .error fault ↔ Unreadable part fault := by
  refine ⟨fun h => ?_, Unreadable.position?⟩
  rcases position_cases part with ⟨hdigits, hshort⟩ | ⟨e, he⟩ | ⟨hnone, -⟩
  · rw [position?_digits hdigits hshort] at h
    cases h
  · rw [he.position?] at h
    cases h
    exact he
  · rw [hnone] at h
    cases h

theorem position?_of_ok {found : Option Nat} (h : position? part = .ok found) :
    found = some i ↔ Position part i := by
  rcases position_cases part with ⟨hdigits, hshort⟩ | ⟨e, he⟩ | ⟨hnone, hno⟩
  · rw [position?_digits hdigits hshort] at h
    cases h
    rw [Option.some.injEq, eq_comm]
    exact ⟨fun hi => ⟨hdigits, hi⟩, fun hi => hi.2⟩
  · rw [he.position?] at h
    cases h
  · rw [hnone] at h
    cases h
    exact iff_of_false nofun fun hi => hno hi.1

end Positions

/-! ## Steps and walks -/

section Walks

variable {v w : Value} {part : String} {parts : List String} {fault : NumberFault}

theorem step_eq_error_iff : v.step part = .error fault ↔ RefusesPart v part fault := by
  cases v with
  | list items =>
      rw [Value.step, map_eq_error, position?_eq_error_iff]
      refine ⟨fun h => ⟨items, rfl, h⟩, fun h => ?_⟩
      obtain ⟨_, -, h⟩ := h
      exact h
  | null | bool _ | int _ | float _ | str _ | object _ =>
      refine ⟨nofun, fun h => ?_⟩
      obtain ⟨items, hlist, -⟩ := h
      cases hlist

/-- **A step that is not refused leads to the value that comes next.** -/
theorem step_of_ok {found : Option Value} (h : v.step part = .ok found) :
    found = some w ↔ Next v part w := by
  cases v with
  | list items =>
      obtain ⟨position, hposition, rfl⟩ := map_eq_ok.mp h
      rw [Option.bind_eq_some_iff]
      constructor
      · intro h
        obtain ⟨i, hi, hitem⟩ := h
        exact .item ((position?_of_ok hposition).mp hi) hitem
      · intro h
        cases h with
        | item hi hitem => exact ⟨_, (position?_of_ok hposition).mpr hi, hitem⟩
  | object ms =>
      cases h
      refine ⟨.key, fun h => ?_⟩
      cases h with
      | key hget => exact hget
  | null | bool _ | int _ | float _ | str _ =>
      cases h
      exact ⟨nofun, nofun⟩

/-- **A walk is interrupted where its parts come to a list that refuses the next.** -/
theorem walk_eq_error_iff : v.walk parts = .error fault ↔ Breaks v parts fault := by
  induction parts generalizing v with
  | nil => exact ⟨nofun, nofun⟩
  | cons part rest ih =>
      rw [Value.walk, bind_eq_error, step_eq_error_iff]
      constructor
      · intro h
        rcases h with h | ⟨found, hstep, hrest⟩
        · exact .here h
        · cases found with
          | none => cases hrest
          | some w =>
              refine .later (fun e he => ?_) ((step_of_ok hstep).mp rfl) (ih.mp hrest)
              rw [step_eq_error_iff.mpr he] at hstep
              cases hstep
      · intro h
        cases h with
        | here h => exact .inl h
        | @later _ w _ _ _ hread hnext hrest =>
            cases hstep : v.step part with
            | error e => exact absurd (step_eq_error_iff.mp hstep) (hread e)
            | ok found =>
                obtain rfl := (step_of_ok hstep).mpr hnext
                exact .inr ⟨some w, rfl, ih.mpr hrest⟩

/-- **A walk that is not interrupted ends where its parts lead.** -/
theorem walk_of_ok {found : Option Value} (h : v.walk parts = .ok found) :
    found = some w ↔ Leads v parts w := by
  induction parts generalizing v with
  | nil =>
      cases h
      refine ⟨fun heq => Option.some.inj heq ▸ .here, fun hleads => ?_⟩
      cases hleads
      rfl
  | cons part rest ih =>
      obtain ⟨next, hstep, hrest⟩ := bind_eq_ok.mp h
      have hleads : Leads v (part :: rest) w ↔ ∃ x, next = some x ∧ Leads x rest w := by
        constructor
        · intro h
          cases h with
          | step hnext hmore => exact ⟨_, (step_of_ok hstep).mpr hnext, hmore⟩
        · intro h
          obtain ⟨x, hx, hmore⟩ := h
          exact .step ((step_of_ok hstep).mp hx) hmore
      rw [hleads]
      cases next with
      | none =>
          cases hrest
          simp
      | some x => simpa using ih hrest

/-- Where all parts can be read nothing is interrupted. -/
theorem not_breaks (h : ∀ part ∈ parts, ∀ e, ¬ Unreadable part e) : ¬ Breaks v parts fault := by
  intro hbreaks
  induction hbreaks with
  | here hrefuses =>
      obtain ⟨_, -, hunreadable⟩ := hrefuses
      exact h _ (List.mem_cons_self ..) _ hunreadable
  | later _ _ _ ih => exact ih fun part hpart => h part (List.mem_cons_of_mem _ hpart)

end Walks

/-! ## Values and errors -/

section Lookups

variable {values errors : Members} {path : String} {fault : NumberFault}

theorem fieldValue?_eq_error_iff :
    fieldValue? values path = .error fault ↔
      Ordered.get? values path = none ∧ Breaks (.object values) (pathParts path) fault := by
  unfold fieldValue?
  split
  · rename_i v hdirect
    simp [hdirect]
  · rename_i hdirect
    rw [walk_eq_error_iff, and_iff_right hdirect]

theorem fieldValue?_of_ok {found : Option Value} (h : fieldValue? values path = .ok found)
    (v : Value) : found = some v ↔ ValueAt values path v := by
  unfold fieldValue? at h
  split at h
  · rename_i w hdirect
    cases h
    simp [ValueAt, hdirect]
  · rename_i hdirect
    simp [walk_of_ok h, ValueAt, hdirect]

theorem asError?_eq_some_iff {v : Value} {e : Members} : asError? v = some e ↔ IsError v e := by
  cases v with
  | object ms =>
      have hobject : IsError (.object ms) e ↔ messageKey ∈ Ordered.keys ms ∧ ms = e := by
        rw [IsError, Value.object.injEq]
        refine ⟨fun h => ?_, fun h => ?_⟩
        · obtain ⟨rfl, hmessage⟩ := h
          exact ⟨hmessage, rfl⟩
        · obtain ⟨hmessage, rfl⟩ := h
          exact ⟨rfl, hmessage⟩
      rw [asError?, hobject, ← has_iff]
      by_cases hmessage : Ordered.has ms messageKey = true
      · rw [if_pos hmessage, Option.some.injEq, and_iff_right hmessage]
      · rw [if_neg hmessage]
        exact iff_of_false nofun fun h => hmessage h.1
  | null | bool _ | int _ | float _ | str _ | list _ =>
      exact iff_of_false nofun fun h => by cases h.1

theorem keyed_eq_some_iff {e : Members} :
    ((Value.object errors).members?.bind fun ms => Ordered.get? ms path).bind asError? = some e ↔
      KeyedError errors path e := by
  simp only [Value.members?, Option.bind_some, Option.bind_eq_some_iff, asError?_eq_some_iff,
    KeyedError]

theorem lookup_eq_error_iff :
    lookup (.object errors) path = .error fault ↔
      path ≠ "" ∧ (∀ e, ¬ KeyedError errors path e) ∧
        Breaks (.object errors) (pathParts path) fault := by
  have hanswers : ∀ found : Option Members, Except.ok found ≠ .error fault := by
    intro found h
    cases h
  by_cases hpath : path = ""
  · subst hpath
    exact iff_of_false (hanswers none) fun h => h.1 rfl
  rw [lookup, if_neg (by simpa using hpath), and_iff_right hpath]
  simp only [← keyed_eq_some_iff]
  split
  · rename_i e hkeyed
    exact iff_of_false (hanswers (some e)) fun h => h.1 e hkeyed
  · rename_i hnone
    rw [map_eq_error, walk_eq_error_iff, hnone]
    exact (and_iff_right fun e => (Option.some_ne_none e).symm).symm

theorem lookup_of_ok {found : Option Members} (h : lookup (.object errors) path = .ok found)
    (e : Members) : found = some e ↔ ErrorAt errors path e := by
  by_cases hpath : path = ""
  · subst hpath
    cases h
    exact iff_of_false nofun fun h => h.1 rfl
  rw [lookup, if_neg (by simpa using hpath)] at h
  rw [ErrorAt, and_iff_right hpath]
  simp only [← keyed_eq_some_iff]
  split at h
  · rename_i e' hkeyed
    cases h
    simp [hkeyed]
  · rename_i hnone
    obtain ⟨end?, hwalk, rfl⟩ := map_eq_ok.mp h
    simp [hnone, Option.bind_eq_some_iff, walk_of_ok hwalk, asError?_eq_some_iff]

end Lookups

/-- **Look-ups find what the parts of a path lead to**, and are interrupted exactly where a list is
asked for an item by a part that looks like digits and is not read as an integer. Paths with no such
part are always looked up. -/
theorem lookups_by_parts (values errors : Members) (path : String) :
    ((∀ fault, fieldValue? values path = .error fault ↔
          Ordered.get? values path = none ∧ Breaks (.object values) (pathParts path) fault) ∧
        ∀ found, fieldValue? values path = .ok found →
          ∀ v, found = some v ↔ ValueAt values path v) ∧
      ((∀ fault, lookup (.object errors) path = .error fault ↔
          path ≠ "" ∧ (∀ e, ¬ KeyedError errors path e) ∧
            Breaks (.object errors) (pathParts path) fault) ∧
        ∀ found, lookup (.object errors) path = .ok found →
          ∀ e, found = some e ↔ ErrorAt errors path e) ∧
      lookup .null path = .ok none ∧
      ((∀ part ∈ pathParts path, ∀ fault, ¬ Unreadable part fault) →
        (∃ found, fieldValue? values path = .ok found) ∧
          ∃ found, lookup (.object errors) path = .ok found) := by
  refine ⟨⟨fun _ => fieldValue?_eq_error_iff, fun _ h => fieldValue?_of_ok h⟩,
    ⟨fun _ => lookup_eq_error_iff, fun _ h => lookup_of_ok h⟩, ?_, fun hread => ⟨?_, ?_⟩⟩
  · rw [lookup]
    split
    · rfl
    · obtain ⟨part, rest, hparts⟩ := List.exists_cons_of_ne_nil (pathParts_ne_nil path)
      rw [hparts]
      rfl
  · cases h : fieldValue? values path with
    | ok found => exact ⟨found, rfl⟩
    | error e => exact absurd (fieldValue?_eq_error_iff.mp h).2 (not_breaks hread)
  · cases h : lookup (.object errors) path with
    | ok found => exact ⟨found, rfl⟩
    | error e => exact absurd (lookup_eq_error_iff.mp h).2.2 (not_breaks hread)

/-- Both look-ups find the first item of a list. -/
theorem lookups_by_parts_tags :
    let values : Members := [("tags", .list [.str "a", .str "b"])]
    let errors : Members := [("tags", .list [.object [("message", .str "m")]])]
    ValueAt values "tags.0" (.str "a") ∧ ErrorAt errors "tags.0" [("message", .str "m")] ∧
      (∃ found, fieldValue? values "tags.0" = .ok found) ∧
        ∃ found, lookup (.object errors) "tags.0" = .ok found := by
  intro values errors
  have hall := lookups_by_parts values errors "tags.0"
  refine ⟨(hall.1.2 _ (by rfl) _).mp rfl, (hall.2.1.2 _ (by rfl) _).mp rfl, hall.2.2.2 ?_⟩
  have hparts : pathParts "tags.0" = ["tags", "0"] := by decide
  rw [hparts]
  intro part hpart fault hunreadable
  have hfault := hunreadable.position?
  rw [List.mem_cons, List.mem_singleton] at hpart
  rcases hpart with rfl | rfl
  · cases hfault
  · cases hfault

/-- A superscript is taken for a position of a list and is none. -/
theorem superscript_part_refused :
    fieldValue? [("tags", .list [.str "a"])] "tags.²" = .error (.notAnInteger "²") ∧
      lookup (.object [("tags", .list [.object [("message", .str "m")]])]) "tags.²" =
        .error (.notAnInteger "²") :=
  ⟨by rfl, by rfl⟩

end Formwork.Proofs
