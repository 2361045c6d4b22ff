import Formwork.Proofs.Number.Numeric
import Formwork.Proofs.Schema.Overflow

/-!
# A chain is the conjunction of its rules

A chain accepts a value exactly when what the kind makes of it has the right type and satisfies
every rule, and answers with just that (`Field.Accepts`). It rejects a value for one thing: for the
type, or else for the first rule in the order of the document that the value violates
(`Field.Rejects`). A number may be rejected before that: a text in the form of a number that is not
read, since it has too many digits or a separator beside it, is nothing whose type could be checked.
And a rule that looks at the value as it is displayed cannot be asked about one with too many digits
for that, which is then what the value is rejected for.

So of the list of rules it only matters which rules are in it, and a rule that is added takes
values away. What was accepted is accepted again: every kind leaves alone what it has made, and
checks do not touch the value.
-/

namespace Formwork

variable (validators : Ordered CustomValidator)

namespace Field

/-- The value passes the check that a rule is compiled to. -/
def Satisfies (f : Field) (w : Value) (r : ValidationRule) : Prop :=
  ∃ c, r.compile validators f.id = .ok c ∧ c.check.passes f.kind w = .ok true

/-- The value fails the check that a rule is compiled to, and the rule has this message. -/
def Violates (f : Field) (w : Value) (r : ValidationRule) (message : String) : Prop :=
  ∃ c, r.compile validators f.id = .ok c ∧ c.check.passes f.kind w = .ok false
    ∧ r.messageFor c.check = .ok message

/-- The rule is compiled to a check that looks at the value as it is displayed, which it cannot
be. -/
def HidesFrom (f : Field) (w : Value) (r : ValidationRule) : Prop :=
  ∃ c, r.compile validators f.id = .ok c ∧ c.check.Shows w ∧ w.isWritable = false

/-- What the kind makes of the value has the right type and satisfies all rules. -/
def Accepts (f : Field) (v w : Value) : Prop :=
  f.kind.coerceInput v = .ok w ∧ f.kind.typeFault? w = none
    ∧ ∀ r ∈ f.validation, f.Satisfies validators w r

/-- The one thing that a value is rejected for. -/
inductive Rejects (f : Field) (v : Value) : Rejection → Prop
  /-- The kind makes nothing of the value. -/
  | unread {fault : NumberFault} (hread : f.kind.coerceInput v = .error fault) :
      Rejects f v (.ofNumber fault.message)
  /-- The type is wrong. -/
  | type {w : Value} {j : Rejection} (hread : f.kind.coerceInput v = .ok w)
      (htype : f.kind.typeFault? w = some j) : Rejects f v j
  /-- A rule is violated, and all rules before it are satisfied. -/
  | rule {w : Value} {before after : List ValidationRule} {r : ValidationRule} {message : String}
      (hread : f.kind.coerceInput v = .ok w) (htype : f.kind.typeFault? w = none)
      (hrules : f.validation = before ++ r :: after)
      (hbefore : ∀ r' ∈ before, f.Satisfies validators w r')
      (hr : f.Violates validators w r message) : Rejects f v ⟨r.kind, message⟩
  /-- A rule cannot be asked, and all rules before it are satisfied. -/
  | hidden {w : Value} {before after : List ValidationRule} {r : ValidationRule}
      (hread : f.kind.coerceInput v = .ok w) (htype : f.kind.typeFault? w = none)
      (hrules : f.validation = before ++ r :: after)
      (hbefore : ∀ r' ∈ before, f.Satisfies validators w r')
      (hr : f.HidesFrom validators w r) :
      Rejects f v (.ofNumber RangeFault.integerTooLong.message)

/-- No check has to compute with what is out of range, whichever of them are come to. -/
def Unhindered (f : Field) (v : Value) : Prop :=
  ∀ w, f.kind.coerceInput v = .ok w → ∀ r ∈ f.validation, ∀ c,
    r.compile validators f.id = .ok c → ∃ passed, c.check.passes f.kind w = .ok passed

end Field

/-- A field's chain is the conjunction of the field's rules. -/
structure FieldSchema.Conjoins (s : FieldSchema) (f : Field) : Prop where
  accepts : ∀ v w, s.validate v = .ok (.ok w) ↔ f.Accepts validators v w
  rejects : ∀ v j, s.validate v = .ok (.error j) ↔ f.Rejects validators v j
  /-- The kind makes nothing of a text in the form of a number that is not read, and of each other
  value it makes something. -/
  unread : ∀ v, (∃ fault, f.kind.coerceInput v = .error fault) ↔
    f.kind = .number ∧ ∃ text, v = .str text ∧ NumericText.isNumeric text = true
      ∧ (NumericText.Separated text ∨ NumericText.Overlong text)
  decides : ∀ v, f.Unhindered validators v →
    (∃ w, f.Accepts validators v w) ∨ ∃ j, f.Rejects validators v j
  /-- What is accepted has no issue, and what is rejected has one. -/
  issues : ∀ path v, (∀ w, f.Accepts validators v w → Schema.fieldIssues path s v = .ok [])
    ∧ ∀ j, f.Rejects validators v j →
      Schema.fieldIssues path s v = .ok [⟨path, j.message, j.code⟩]
  /-- The order of the rules does not matter, nor how often they are there. -/
  unordered : ∀ rules : List ValidationRule, (∀ r, r ∈ rules ↔ r ∈ f.validation) →
    ∃ s', { f with validation := rules }.compile validators = .ok s'
      ∧ ∀ v w, s'.validate v = .ok (.ok w) ↔ s.validate v = .ok (.ok w)
  /-- With more rules nothing more is accepted. -/
  shrinks : ∀ (rules : List ValidationRule) (s' : FieldSchema), f.validation ⊆ rules →
    { f with validation := rules }.compile validators = .ok s' →
    ∀ v w, s'.validate v = .ok (.ok w) → s.validate v = .ok (.ok w)
  /-- What is accepted is accepted as it is. -/
  stable : ∀ v w, s.validate v = .ok (.ok w) → s.validate w = .ok (.ok w)

end Formwork

namespace Formwork.Proofs

open Formwork

/-! ## What a kind makes of a value -/

theorem coerceNumber_again {v w : Value} (h : FieldKind.coerceNumber v = .ok w) :
    FieldKind.coerceNumber w = .ok w := by
  cases v with
  | str s =>
      rw [FieldKind.coerceNumber] at h
      split at h
      · cases h
        rfl
      · split at h
        · -- what is read is an integer or a double, and no text any more
          rw [NumericText.parse] at h
          split at h
          · unfold NumericText.integer at h
            split at h <;> cases h
            rfl
          · split at h <;> cases h
            rfl
        · rename_i hblank hnumeric
          cases h
          rw [FieldKind.coerceNumber, if_neg hblank, if_neg hnumeric]
  | null | bool | int | float | list | object =>
      cases h
      rfl

theorem coerceCheckbox_again (v : Value) :
    FieldKind.coerceCheckbox (FieldKind.coerceCheckbox v) = FieldKind.coerceCheckbox v := by
  cases v with
  | str s =>
      by_cases htrue : FieldKind.folded s == "true"
      · simp [FieldKind.coerceCheckbox, htrue]
      · by_cases hfalse : FieldKind.folded s == "false"
        · simp [FieldKind.coerceCheckbox, htrue, hfalse]
        · simp [FieldKind.coerceCheckbox, htrue, hfalse]
  | null | bool | int | float | list | object => rfl

/-- **A kind leaves alone what it has made.** -/
theorem coerceInput_again {k : FieldKind} {v w : Value} (h : k.coerceInput v = .ok w) :
    k.coerceInput w = .ok w := by
  cases k with
  | number => exact coerceNumber_again h
  | checkbox =>
      cases h
      exact congrArg Except.ok (coerceCheckbox_again v)
  | text | dropdown | autocomplete | radio | date | file | button =>
      cases h
      rfl

theorem coerceInput_error_iff {k : FieldKind} {v : Value} :
    (∃ fault, k.coerceInput v = .error fault) ↔
      k = .number ∧ ∃ text, v = .str text ∧ NumericText.isNumeric text = true
        ∧ (NumericText.Separated text ∨ NumericText.Overlong text) := by
  cases k with
  | number =>
      rw [FieldKind.coerceInput, coerceNumber_error_iff]
      simp
  | text | dropdown | autocomplete | radio | checkbox | date | file | button =>
      simp [FieldKind.coerceInput]

/-! ## Rules -/

section Rules

variable {validators : Ordered CustomValidator} {f : Field} {w : Value}

/-- A compiled rule has the kind that the rule names, and the message of the rule. -/
theorem rule_compile_eq_ok {fieldId : String} {r : ValidationRule} {c : Rule}
    (h : r.compile validators fieldId = .ok c) :
    c.kind.name = r.kind ∧ r.messageFor c.check = .ok c.message := by
  unfold ValidationRule.compile at h
  split at h
  · cases h
  · rename_i kind hkind
    obtain ⟨check, -, h⟩ := bind_eq_ok.mp h
    obtain ⟨message, hmessage, heq⟩ := bind_eq_ok.mp h
    cases heq
    exact ⟨name_of_ofName? hkind, hmessage⟩

/-- All checks are passed when all rules are satisfied. -/
theorem failure?_eq_none_iff {rules : List ValidationRule} {compiled : List Rule}
    (h : rules.mapM (ValidationRule.compile validators f.id) = .ok compiled) :
    FieldSchema.failure? f.kind w compiled = .ok none ↔
      ∀ r ∈ rules, f.Satisfies validators w r := by
  induction rules generalizing compiled with
  | nil =>
      cases h
      exact ⟨fun _ => List.forall_mem_nil _, fun _ => rfl⟩
  | cons r rules ih =>
      obtain ⟨c, rest, hc, hrest, rfl⟩ := mapM_cons_eq_ok.mp h
      have hhead : f.Satisfies validators w r ↔ c.check.passes f.kind w = .ok true :=
        ⟨fun ⟨c', hc', hpasses⟩ => by cases hc.symm.trans hc'; exact hpasses, fun hp => ⟨c, hc, hp⟩⟩
      rw [FieldSchema.failure?, bind_eq_ok, List.forall_mem_cons, hhead, ← ih hrest,
        ← rejection?_eq_none_iff]
      constructor
      · rintro ⟨rejection, hrejection, hgo⟩
        cases rejection with
        | none => exact ⟨hrejection, hgo⟩
        | some j => cases hgo
      · rintro ⟨hrejection, hgo⟩
        exact ⟨none, hrejection, hgo⟩

/-- What a compiled rule has to say against a value that violates it, or that it cannot look at. -/
theorem rejection?_eq_some_iff {r : ValidationRule} {c : Rule} {j : Rejection}
    (h : r.compile validators f.id = .ok c) :
    c.rejection? f.kind w = .ok (some j) ↔
      (∃ message, f.Violates validators w r message ∧ j = ⟨r.kind, message⟩)
        ∨ (f.HidesFrom validators w r ∧ j = .ofNumber RangeFault.integerTooLong.message) := by
  obtain ⟨hname, hmessage⟩ := rule_compile_eq_ok h
  constructor
  · intro hj
    unfold Rule.rejection? at hj
    split at hj
    · cases hj
    · rename_i hfails
      cases hj
      rw [hname]
      exact .inl ⟨_, ⟨c, h, hfails, hmessage⟩, rfl⟩
    · rename_i hhidden
      cases hj
      obtain ⟨hshows, hw⟩ := passes_eq_hidden_iff.mp hhidden
      exact .inr ⟨⟨c, h, hshows, hw⟩, rfl⟩
    · cases hj
  · rintro (⟨message, ⟨c', hc', hfails, hmessage'⟩, rfl⟩ | ⟨⟨c', hc', hshows, hw⟩, rfl⟩)
    · cases h.symm.trans hc'
      cases hmessage.symm.trans hmessage'
      rw [Rule.rejection?, hfails, ← hname]
    · cases h.symm.trans hc'
      rw [Rule.rejection?, passes_hidden hshows hw]

/-- The first of the rules that are not satisfied has what there is to say. -/
theorem failure?_eq_some_iff {rules : List ValidationRule} {compiled : List Rule} {j : Rejection}
    (h : rules.mapM (ValidationRule.compile validators f.id) = .ok compiled) :
    FieldSchema.failure? f.kind w compiled = .ok (some j) ↔
      ∃ before r after, rules = before ++ r :: after
        ∧ (∀ r' ∈ before, f.Satisfies validators w r')
        ∧ ∃ c, r.compile validators f.id = .ok c ∧ c.rejection? f.kind w = .ok (some j) := by
  induction rules generalizing compiled with
  | nil =>
      cases h
      exact ⟨nofun, fun ⟨before, r, after, h, _⟩ => by simp at h⟩
  | cons r rules ih =>
      obtain ⟨c', rest, hc', hrest, rfl⟩ := mapM_cons_eq_ok.mp h
      rw [FieldSchema.failure?, bind_eq_ok]
      constructor
      · rintro ⟨rejection, hrejection, hgo⟩
        cases rejection with
        | none =>
            obtain ⟨before, r', after, rfl, hbefore, hr'⟩ := (ih hrest).mp hgo
            have hhead : f.Satisfies validators w r :=
              ⟨c', hc', rejection?_eq_none_iff.mp hrejection⟩
            exact ⟨r :: before, r', after, rfl, List.forall_mem_cons.mpr ⟨hhead, hbefore⟩, hr'⟩
        | some j' =>
            cases hgo
            exact ⟨[], r, rules, rfl, List.forall_mem_nil _, c', hc', hrejection⟩
      · rintro ⟨before, r', after, heq, hbefore, c, hc, hrejection⟩
        cases before with
        | nil =>
            cases heq
            cases hc'.symm.trans hc
            exact ⟨some j, hrejection, rfl⟩
        | cons first before =>
            cases heq
            obtain ⟨⟨c'', hc'', hpasses⟩, hbefore⟩ := List.forall_mem_cons.mp hbefore
            cases hc'.symm.trans hc''
            exact ⟨none, rejection?_eq_none_iff.mpr hpasses,
              (ih hrest).mpr ⟨before, r', after, rfl, hbefore, c, hc, hrejection⟩⟩

end Rules

/-! ## The chain -/

section Chain

variable {validators : Ordered CustomValidator} {f : Field} {s : FieldSchema}

theorem validate_eq_ok_iff (hs : f.compile validators = .ok s) {v w : Value} :
    s.validate v = .ok (.ok w) ↔ f.Accepts validators v w := by
  obtain ⟨hkind, hrules⟩ := field_compile_eq_ok hs
  unfold FieldSchema.validate Field.Accepts
  rw [hkind]
  cases f.kind.coerceInput v with
  | error fault => exact ⟨nofun, nofun⟩
  | ok w' =>
      dsimp only
      rw [Except.ok.injEq]
      cases htype : f.kind.typeFault? w' with
      | some j =>
          refine ⟨nofun, ?_⟩
          rintro ⟨rfl, hno, -⟩
          rw [htype] at hno
          cases hno
      | none =>
          dsimp only
          rw [bind_eq_ok]
          constructor
          · rintro ⟨failed, hfailed, hgo⟩
            cases failed with
            | some j => cases hgo
            | none =>
                cases hgo
                exact ⟨rfl, htype, (failure?_eq_none_iff hrules).mp hfailed⟩
          · rintro ⟨rfl, -, hall⟩
            exact ⟨none, (failure?_eq_none_iff hrules).mpr hall, rfl⟩

theorem validate_eq_rejected_iff (hs : f.compile validators = .ok s) {v : Value} {j : Rejection} :
    s.validate v = .ok (.error j) ↔ f.Rejects validators v j := by
  obtain ⟨hkind, hrules⟩ := field_compile_eq_ok hs
  unfold FieldSchema.validate
  rw [hkind]
  constructor
  · intro h
    split at h
    · rename_i hread
      cases h
      exact .unread hread
    · rename_i w hread
      split at h
      · rename_i htype
        cases h
        exact .type hread htype
      · rename_i htype
        obtain ⟨failed, hfailed, h⟩ := bind_eq_ok.mp h
        cases failed with
        | none => cases h
        | some j' =>
            cases h
            obtain ⟨before, r, after, hsplit, hbefore, c, hc, hrejection⟩ :=
              (failure?_eq_some_iff hrules).mp hfailed
            rcases (rejection?_eq_some_iff hc).mp hrejection with ⟨message, hr, rfl⟩ | ⟨hr, rfl⟩
            · exact .rule hread htype hsplit hbefore hr
            · exact .hidden hread htype hsplit hbefore hr
  · intro h
    cases h with
    | unread hread => rw [hread]
    | type hread htype =>
        rw [hread]
        dsimp only
        rw [htype]
    | rule hread htype hsplit hbefore hr =>
        obtain ⟨c, hc, hviolates⟩ := hr
        have hrejection := (rejection?_eq_some_iff hc).mpr (.inl ⟨_, ⟨c, hc, hviolates⟩, rfl⟩)
        rw [hread]
        dsimp only
        rw [htype]
        dsimp only
        rw [(failure?_eq_some_iff hrules).mpr ⟨_, _, _, hsplit, hbefore, c, hc, hrejection⟩]
        rfl
    | hidden hread htype hsplit hbefore hr =>
        obtain ⟨c, hc, hhides⟩ := hr
        have hrejection := (rejection?_eq_some_iff hc).mpr (.inr ⟨⟨c, hc, hhides⟩, rfl⟩)
        rw [hread]
        dsimp only
        rw [htype]
        dsimp only
        rw [(failure?_eq_some_iff hrules).mpr ⟨_, _, _, hsplit, hbefore, c, hc, hrejection⟩]
        rfl

/-- A chain none of whose checks is out of range accepts or rejects. -/
theorem accepts_or_rejects (hs : f.compile validators = .ok s) {v : Value}
    (hv : f.Unhindered validators v) :
    (∃ w, f.Accepts validators v w) ∨ ∃ j, f.Rejects validators v j := by
  obtain ⟨hkind, hrules⟩ := field_compile_eq_ok hs
  have hfine : ¬s.Overflows v := by
    rintro ⟨w, hread, hlarge, -, before, c, after, heq, -, hweighs⟩
    obtain ⟨r, hr, hc⟩ := mem_mapM hrules (y := c) (by rw [heq]; simp)
    rw [hkind] at hread
    obtain ⟨passed, hpassed⟩ := hv w hread r hr c hc
    have hrejection : ∃ j?, c.rejection? f.kind w = .ok j? := by
      unfold Rule.rejection?
      rw [hpassed]
      cases passed <;> exact ⟨_, rfl⟩
    exact (rejection?_fails f.kind w c).answers_iff.mp hrejection ⟨hkind ▸ hweighs, hlarge⟩
  obtain ⟨answer, hanswer⟩ := (fieldValidate_fails s v).answers hfine
  cases answer with
  | ok w => exact .inl ⟨w, (validate_eq_ok_iff hs).mp hanswer⟩
  | error j => exact .inr ⟨j, (validate_eq_rejected_iff hs).mp hanswer⟩

theorem fieldIssues_of_accepts (hs : f.compile validators = .ok s) {v w : Value}
    (h : f.Accepts validators v w) (path : String) : Schema.fieldIssues path s v = .ok [] := by
  rw [Schema.fieldIssues, (validate_eq_ok_iff hs).mpr h]
  rfl

theorem fieldIssues_of_rejects (hs : f.compile validators = .ok s) {v : Value} {j : Rejection}
    (h : f.Rejects validators v j) (path : String) :
    Schema.fieldIssues path s v = .ok [⟨path, j.message, j.code⟩] := by
  rw [Schema.fieldIssues, (validate_eq_rejected_iff hs).mpr h]
  rfl

/-- What is accepted is what the kind makes of it, and accepted again. -/
theorem accepts_again {v w : Value} (h : f.Accepts validators v w) : f.Accepts validators w w :=
  ⟨coerceInput_again h.1, h.2⟩

/-- A value that all rules accept is accepted by those of them that are on a list. -/
theorem accepts_of_subset {rules : List ValidationRule} (hsub : f.validation ⊆ rules)
    {v w : Value} (h : { f with validation := rules }.Accepts validators v w) :
    f.Accepts validators v w :=
  ⟨h.1, h.2.1, fun r hr => h.2.2 r (hsub hr)⟩

theorem compile_of_mem_iff (hs : f.compile validators = .ok s) {rules : List ValidationRule}
    (hmem : ∀ r, r ∈ rules ↔ r ∈ f.validation) :
    ∃ s', { f with validation := rules }.compile validators = .ok s' := by
  have hall := mapM_answers_iff.mp ⟨_, (field_compile_eq_ok hs).2⟩
  obtain ⟨compiled, hcompiled⟩ := mapM_answers_iff.mpr fun r hr => hall r ((hmem r).mp hr)
  exact ⟨⟨f.id, f.kind, compiled⟩, bind_eq_ok.mpr ⟨compiled, hcompiled, rfl⟩⟩

end Chain

/--
**A chain is the conjunction of its rules.**

Whatever field was compiled, and whatever checks were supplied for it, the chain accepts exactly
what the type and all the rules accept, as the kind brings it to its form, and then accepts the
result as it is. What it rejects has one issue, with the code and the message of the type check or
else of the first rule that is violated. So the rules may be listed in another order or more than
once, and more rules accept less.
-/
theorem chain_conjoins {validators : Ordered CustomValidator} {f : Field} {s : FieldSchema}
    (hs : f.compile validators = .ok s) : s.Conjoins validators f where
  accepts _ _ := validate_eq_ok_iff hs
  rejects _ _ := validate_eq_rejected_iff hs
  unread _ := coerceInput_error_iff
  decides _ hv := accepts_or_rejects hs hv
  issues path _ :=
    ⟨fun _ hw => fieldIssues_of_accepts hs hw path, fun _ hj => fieldIssues_of_rejects hs hj path⟩
  unordered rules hmem := by
    obtain ⟨s', hs'⟩ := compile_of_mem_iff hs hmem
    refine ⟨s', hs', fun v w => ?_⟩
    rw [validate_eq_ok_iff hs, validate_eq_ok_iff hs']
    constructor
    · exact accepts_of_subset fun r hr => (hmem r).mpr hr
    · rintro ⟨hread, htype, hall⟩
      exact ⟨hread, htype, fun r hr => hall r ((hmem r).mp hr)⟩
  shrinks rules s' hsub hs' v w h :=
    (validate_eq_ok_iff hs).mpr (accepts_of_subset hsub ((validate_eq_ok_iff hs').mp h))
  stable v w h := (validate_eq_ok_iff hs).mpr (accepts_again ((validate_eq_ok_iff hs).mp h))

/-! ## A room -/

/-- A number that is written with two or three characters. -/
def roomField : Field :=
  { textField "room" with
    kind := .number
    validation := [⟨"minLength", some (.int 2), "Too short"⟩, ⟨"maxLength", some (.text "3"), ""⟩] }

/-- The chain of the room. -/
def roomSchema : FieldSchema :=
  ⟨"room", .number, [⟨.minLength, .length .least 2, "Too short"⟩,
    ⟨.maxLength, .length .most 3, "Must be at most 3 characters"⟩]⟩

/-- A room is read from a text and accepted as the number that it is, and of a number that is too
short just that is told; in the other order the rules accept the same. -/
theorem chain_conjoins_room :
    roomField.compile [] = .ok roomSchema
      ∧ roomField.Accepts [] (.str " 21 ") (.int 21)
      ∧ roomSchema.validate (.int 21) = .ok (.ok (.int 21))
      ∧ (∀ path, Schema.fieldIssues path roomSchema (.str "7") =
          .ok [⟨path, "Too short", "minLength"⟩])
      ∧ ∃ s', { roomField with validation := roomField.validation.reverse }.compile [] = .ok s'
          ∧ ∀ v w, s'.validate v = .ok (.ok w) ↔ roomSchema.validate v = .ok (.ok w) := by
  have hs : roomField.compile [] = .ok roomSchema := by rfl
  have hroom : roomSchema.validate (.str " 21 ") = .ok (.ok (.int 21)) := by rfl
  have hshort : roomSchema.validate (.str "7") = .ok (.error ⟨"minLength", "Too short"⟩) := by rfl
  have hchain := chain_conjoins hs
  exact ⟨hs, (hchain.accepts _ _).mp hroom, hchain.stable _ _ hroom,
    fun path => (hchain.issues path _).2 _ ((hchain.rejects _ _).mp hshort),
    hchain.unordered _ fun r => List.mem_reverse⟩

/-- Behind a separator the number is not read, and the one issue is neither that of the type nor
that of a rule. -/
theorem room_unread :
    (∀ path, Schema.fieldIssues path roomSchema (.str "\x1c21") = .ok [⟨path,
        "Value error, invalid literal for int() with base 10: '\\x1c21'", "value_error"⟩])
      ∧ (∀ w j, FieldKind.number.typeFault? w = some j → j.code ≠ "value_error")
      ∧ ∀ r ∈ roomField.validation, r.kind ≠ "value_error" := by
  have hread : roomSchema.validate (.str "\x1c21") = .ok (.error ⟨"value_error",
      "Value error, invalid literal for int() with base 10: '\\x1c21'"⟩) := by rfl
  refine ⟨fun path => ?_, fun w j hj => ?_, by decide⟩
  · rw [Schema.fieldIssues, hread]
    rfl
  · cases w <;> cases hj <;> decide

end Formwork.Proofs
