import Formwork.Proofs.Reference.Fixpoint
import Mathlib.Data.List.Nodup

/-!
# References inside a use of a sub-form

A sub-form may be met several times in one expansion, at any depth and under any suffix, and
nothing in the resulting list tells its uses apart but their ids. So the expansion is
followed once more with labels (`Traced`): every copy is put out with its place, which is
the positions of the blocks that led to it, from the outermost in, and its own position
among the blocks of its document. Places never repeat, and a use of a sub-form (`Occurs`) is
the place of the block that gave way to it.

Whatever refers to a block of the document is renamed by other code than the block itself:
templates, the targets of buttons and of the entries of menus, groups. All of it comes down
to one function on references (`suffixReference`), which leaves what is missing or empty and
is one-to-one. So the copies that belong to one use refer to each other as the blocks of the
document do (`Intact`), and since splicing never repeats an id, to nothing else.
-/

namespace Formwork.Proofs

open Formwork

/-! ## Suffixed references -/

section Suffixes

variable {ref ref' : Option String} {r : String} (suffix : String)

/-- Only what is given and not empty takes a suffix. -/
theorem suffixReference_eq_map (ref : Option String) :
    suffixReference ref suffix = ref.map fun r => if r = "" then r else r ++ suffix := by
  cases ref with
  | none => rfl
  | some r =>
      by_cases hr : r = ""
      · subst hr
        rfl
      · have hgiven : nonEmpty? (some r) = some r :=
          Option.filter_eq_some_iff.mpr ⟨rfl, by simpa using hr⟩
        rw [suffixReference, hgiven, Option.map_some, if_neg hr]

theorem suffixReference_of_nonEmpty (h : nonEmpty? ref = some r) :
    suffixReference ref suffix = some (r ++ suffix) := by
  rw [suffixReference, h]

/-- **References that differ stay different under one suffix.** -/
theorem suffixReference_inj :
    suffixReference ref suffix = suffixReference ref' suffix ↔ ref = ref' := by
  have hinj : Function.Injective fun r : String => if r = "" then r else r ++ suffix := by
    intro r r' h
    dsimp only at h
    split at h <;> split at h
    · rw [h]
    · simp_all
    · simp_all
    · exact (String.append_left_inj suffix).mp h
  rw [suffixReference_eq_map, suffixReference_eq_map]
  exact (Option.map_injective hinj).eq_iff

theorem suffixReference_isSome (ref : Option String) :
    (suffixReference ref suffix).isSome = ref.isSome := by
  rw [suffixReference_eq_map, Option.isSome_map]

theorem suffixReference_empty (ref : Option String) : suffixReference ref "" = ref := by
  rw [suffixReference_eq_map]
  cases ref <;> simp

theorem button_withSuffix_empty (b : Button) : b.withSuffix "" = b := by
  have hitem : (fun i : MenuItem => i.withSuffix "") = id := by
    funext i
    simp [MenuItem.withSuffix]
  rw [Button.withSuffix, suffixReference_empty, hitem]
  cases b with
  | mk variant target items => cases items <;> simp

theorem field_withSuffix_empty (f : Field) : f.withSuffix "" = f := by
  have hbutton : (fun b : Button => b.withSuffix "") = id := by
    funext b
    exact button_withSuffix_empty b
  rw [Field.withSuffix, suffixReference_empty, hbutton, Option.map_id, id, String.append_empty]

/-- The copy of a block, for the empty suffix as for all others. -/
theorem block_withSuffix_eq (b : Block) :
    b.withSuffix suffix =
      { b with
        id := b.id ++ suffix
        fields := b.fields.map fun f => f.withSuffix suffix
        repeatableBlockRef := suffixReference b.repeatableBlockRef suffix } := by
  unfold Block.withSuffix
  split
  · rename_i hempty
    subst hempty
    have hfield : (fun f : Field => f.withSuffix "") = id := by
      funext f
      exact field_withSuffix_empty f
    rw [String.append_empty, suffixReference_empty, hfield, List.map_id]
  · rfl

@[simp] theorem withSuffix_id (b : Block) : (b.withSuffix suffix).id = b.id ++ suffix := by
  rw [block_withSuffix_eq]

@[simp] theorem withSuffix_fields (b : Block) :
    (b.withSuffix suffix).fields = b.fields.map fun f => f.withSuffix suffix := by
  rw [block_withSuffix_eq]

@[simp] theorem withSuffix_repeatableBlockRef (b : Block) :
    (b.withSuffix suffix).repeatableBlockRef = suffixReference b.repeatableBlockRef suffix := by
  rw [block_withSuffix_eq]

@[simp] theorem withSuffix_repeatable (b : Block) :
    (b.withSuffix suffix).repeatable = b.repeatable := by
  rw [block_withSuffix_eq]

@[simp] theorem withSuffix_templateOnly (b : Block) :
    (b.withSuffix suffix).templateOnly = b.templateOnly := by
  rw [block_withSuffix_eq]

theorem withSuffix_template? (b : Block) :
    (b.withSuffix suffix).template? = b.template?.map (· ++ suffix) := by
  rw [Block.template?, withSuffix_repeatableBlockRef, nonEmpty?_suffixReference]
  rfl

end Suffixes

/-! ## Targets and groups -/

/-- The popins that a button opens: its own, then those of the entries of its menu. -/
def targets (b : Button) : List String :=
  (nonEmpty? b.popinBlockId).toList ++ (b.items.getD []).map MenuItem.popinBlockId

/-- The popins that a field opens. -/
def fieldTargets (f : Field) : List String := (f.button.map targets).getD []

theorem targets_withSuffix (b : Button) (suffix : String) :
    targets (b.withSuffix suffix) = (targets b).map (· ++ suffix) := by
  have hitems : ((b.withSuffix suffix).items.getD []).map MenuItem.popinBlockId =
      ((b.items.getD []).map MenuItem.popinBlockId).map (· ++ suffix) := by
    rw [Button.withSuffix]
    cases b.items with
    | none => rfl
    | some items =>
        dsimp only [Option.map_some, Option.getD_some]
        rw [List.map_map, List.map_map]
        rfl
  rw [targets, targets, List.map_append, ← hitems]
  congr 1
  show (nonEmpty? (suffixReference b.popinBlockId suffix)).toList = _
  rw [nonEmpty?_suffixReference]
  cases nonEmpty? b.popinBlockId <;> rfl

theorem fieldTargets_withSuffix (f : Field) (suffix : String) :
    fieldTargets (f.withSuffix suffix) = (fieldTargets f).map (· ++ suffix) := by
  unfold fieldTargets Field.withSuffix
  cases f.button with
  | none => rfl
  | some b => exact targets_withSuffix b suffix

/-- Two fields name one group. -/
def ShareGroup (f g : Field) : Prop :=
  ∃ group, f.repeatableGroupId = some group ∧ g.repeatableGroupId = some group

theorem shareGroup_iff {f g : Field} : ShareGroup f g ↔
    f.repeatableGroupId = g.repeatableGroupId ∧ f.repeatableGroupId.isSome = true := by
  unfold ShareGroup
  constructor
  · rintro ⟨group, hf, hg⟩
    rw [hf, hg]
    exact ⟨rfl, rfl⟩
  · rintro ⟨heq, hsome⟩
    obtain ⟨group, hf⟩ := Option.isSome_iff_exists.mp hsome
    exact ⟨group, hf, heq ▸ hf⟩

theorem shareGroup_withSuffix (f g : Field) (suffix : String) :
    ShareGroup (f.withSuffix suffix) (g.withSuffix suffix) ↔ ShareGroup f g := by
  rw [shareGroup_iff, shareGroup_iff]
  show suffixReference _ _ = suffixReference _ _ ∧ (suffixReference _ _).isSome = true ↔ _
  rw [suffixReference_inj, suffixReference_isSome]

/-! ## Uses and copies -/

/-- A copy that an expansion has put out: its place, the document that its block is from, if it is
not one of the blocks that are expanded, the block, and the suffix that it is copied under. -/
structure Copy where
  place : List Nat
  owner : Option SubForm
  source : Block
  suffix : String

/-- The block that is put out. -/
def Copy.block (c : Copy) : Block := c.source.withSuffix c.suffix

/-- The copy as one inside the block at a position. -/
def Copy.inside (n : Nat) (c : Copy) : Copy := { c with place := n :: c.place }

/-- The expansion of blocks from a position on, with the place of every copy. -/
inductive Traced (docs : String → Option SubForm) :
    Option SubForm → Nat → List Block → String → List Copy → Prop where
  | nil {owner : Option SubForm} {n : Nat} {suffix : String} : Traced docs owner n [] suffix []
  | keep {owner : Option SubForm} {n : Nat} {b : Block} {bs : List Block} {suffix : String}
      {trace : List Copy} :
      b.expansion? = none → Traced docs owner (n + 1) bs suffix trace →
      Traced docs owner n (b :: bs) suffix (⟨[n], owner, b, suffix⟩ :: trace)
  | splice {owner : Option SubForm} {n : Nat} {b : Block} {bs : List Block} {id suffix : String}
      {f : SubForm} {inner trace : List Copy} :
      b.expansion? = some id → docs id = some f →
      Traced docs (some f) 0 f.blocks (b.instanceSuffix ++ suffix) inner →
      Traced docs owner (n + 1) bs suffix trace →
      Traced docs owner n (b :: bs) suffix (inner.map (Copy.inside n) ++ trace)

/-- Expanding blocks comes to the use of a sub-form at a place, and copies the blocks of the
sub-form under a suffix. -/
inductive Occurs (docs : String → Option SubForm) :
    List Block → String → List Nat → SubForm → String → Prop where
  | here {bs : List Block} {suffix : String} {n : Nat} {b : Block} {id : String} {f : SubForm} :
      bs[n]? = some b → b.expansion? = some id → docs id = some f →
      Occurs docs bs suffix [n] f (b.instanceSuffix ++ suffix)
  | inside {bs : List Block} {suffix : String} {n : Nat} {b : Block} {id : String} {f g : SubForm}
      {place : List Nat} {suffix' : String} :
      bs[n]? = some b → b.expansion? = some id → docs id = some f →
      Occurs docs f.blocks (b.instanceSuffix ++ suffix) place g suffix' →
      Occurs docs bs suffix (n :: place) g suffix'

section Traces

variable {docs : String → Option SubForm} {owner : Option SubForm} {n : Nat} {bs out : List Block}
  {suffix : String} {trace : List Copy}

/-- Every expansion can be followed with labels. -/
theorem Expands.traced (h : Expands docs bs suffix out) (owner : Option SubForm) (n : Nat) :
    ∃ trace, Traced docs owner n bs suffix trace ∧ trace.map Copy.block = out := by
  induction h generalizing owner n with
  | nil => exact ⟨[], .nil, rfl⟩
  | keep hb _ ih =>
      obtain ⟨trace, htrace, hout⟩ := ih owner (n + 1)
      exact ⟨_, .keep hb htrace, by rw [List.map_cons, hout]; rfl⟩
  | @splice b bs inner out id suffix f hid hdoc _ _ ihin ihout =>
      obtain ⟨traceIn, htraceIn, rfl⟩ := ihin (some f) 0
      obtain ⟨trace, htrace, rfl⟩ := ihout owner (n + 1)
      refine ⟨_, .splice hid hdoc htraceIn htrace, ?_⟩
      rw [List.map_append, List.map_map]
      rfl

/-- Places begin with the position of a block that is expanded. -/
theorem Traced.place_cases (h : Traced docs owner n bs suffix trace) :
    ∀ c ∈ trace, ∃ m rest, c.place = m :: rest ∧ n ≤ m := by
  induction h with
  | nil => exact List.forall_mem_nil _
  | keep _ _ ih =>
      refine List.forall_mem_cons.mpr ⟨⟨_, _, rfl, Nat.le_refl _⟩, fun c hc => ?_⟩
      obtain ⟨m, rest, hplace, hle⟩ := ih c hc
      exact ⟨m, rest, hplace, by omega⟩
  | splice _ _ _ _ _ ih =>
      refine List.forall_mem_append.mpr ⟨fun c hc => ?_, fun c hc => ?_⟩
      · obtain ⟨c', -, rfl⟩ := List.mem_map.mp hc
        exact ⟨_, _, rfl, Nat.le_refl _⟩
      · obtain ⟨m, rest, hplace, hle⟩ := ih c hc
        exact ⟨m, rest, hplace, by omega⟩

/-- **No place repeats.** -/
theorem Traced.nodup_places (h : Traced docs owner n bs suffix trace) :
    (trace.map Copy.place).Nodup := by
  induction h with
  | nil => exact List.nodup_nil
  | @keep owner n b bs suffix trace _ htrace ih =>
      refine List.nodup_cons.mpr ⟨fun hmem => ?_, ih⟩
      obtain ⟨c, hc, hplace⟩ := List.mem_map.mp hmem
      obtain ⟨m, rest, hplace', hle⟩ := htrace.place_cases c hc
      rw [hplace] at hplace'
      have := (List.cons.inj hplace').1
      omega
  | @splice owner n b bs id suffix f inner trace _ _ _ htrace ihin ih =>
      -- all places inside the use begin with its position, and those behind it with later ones
      rw [List.map_append, List.nodup_append]
      refine ⟨?_, ih, ?_⟩
      · have hinside : (inner.map (Copy.inside n)).map Copy.place =
            (inner.map Copy.place).map (n :: ·) := by
          rw [List.map_map, List.map_map]
          rfl
        rw [hinside]
        exact ihin.map fun _ _ heq => (List.cons.inj heq).2
      · intro place hplace place' hplace' heq
        obtain ⟨c, hc, rfl⟩ := List.mem_map.mp hplace
        obtain ⟨c, -, rfl⟩ := List.mem_map.mp hc
        obtain ⟨c', hc', rfl⟩ := List.mem_map.mp hplace'
        obtain ⟨m, rest, hplace', hle⟩ := htrace.place_cases c' hc'
        rw [hplace'] at heq
        have := (List.cons.inj heq).1
        omega

/-- A block that stays is copied at its own position. -/
theorem Traced.kept (h : Traced docs owner n bs suffix trace) {i : Nat} {b : Block}
    (hb : bs[i]? = some b) (hkeep : b.expansion? = none) :
    ⟨[n + i], owner, b, suffix⟩ ∈ trace := by
  -- behind the first block, positions count from one further on
  induction h generalizing i with
  | nil => cases hb
  | keep _ _ ih =>
      cases i with
      | zero => cases hb; exact List.mem_cons_self ..
      | succ i =>
          refine List.mem_cons_of_mem _ ?_
          rw [← Nat.succ_add_eq_add_succ]
          exact ih hb
  | splice hid _ _ _ _ ih =>
      cases i with
      | zero =>
          cases hb
          rw [hid] at hkeep
          cases hkeep
      | succ i =>
          refine List.mem_append_right _ ?_
          rw [← Nat.succ_add_eq_add_succ]
          exact ih hb

/-- A block that gives way is followed by the copies of what it stands for, inside its position. -/
theorem Traced.entered (h : Traced docs owner n bs suffix trace) {i : Nat} {b : Block} {id : String}
    {f : SubForm} (hb : bs[i]? = some b) (hid : b.expansion? = some id) (hdoc : docs id = some f) :
    ∃ inner, Traced docs (some f) 0 f.blocks (b.instanceSuffix ++ suffix) inner
      ∧ ∀ c ∈ inner, c.inside (n + i) ∈ trace := by
  induction h generalizing i with
  | nil => cases hb
  | keep hkeep _ ih =>
      cases i with
      | zero =>
          cases hb
          rw [hid] at hkeep
          cases hkeep
      | succ i =>
          obtain ⟨inner, hinner, hmem⟩ := ih hb
          refine ⟨inner, hinner, fun c hc => List.mem_cons_of_mem _ ?_⟩
          rw [← Nat.succ_add_eq_add_succ]
          exact hmem c hc
  | splice hid' hdoc' hinner _ _ ih =>
      cases i with
      | zero =>
          cases hb
          rw [hid] at hid'
          cases hid'
          rw [hdoc] at hdoc'
          cases hdoc'
          exact ⟨_, hinner, fun c hc => List.mem_append_left _ (List.mem_map_of_mem hc)⟩
      | succ i =>
          obtain ⟨inner, hinner, hmem⟩ := ih hb
          refine ⟨inner, hinner, fun c hc => List.mem_append_right _ ?_⟩
          rw [← Nat.succ_add_eq_add_succ]
          exact hmem c hc

/-- **Where a sub-form is used, each of its blocks that stay has its copy.** -/
theorem Traced.copied (h : Traced docs owner 0 bs suffix trace) {place : List Nat} {f : SubForm}
    {suffix' : String} (hoccurs : Occurs docs bs suffix place f suffix') {i : Nat} {b : Block}
    (hb : f.blocks[i]? = some b) (hkeep : b.expansion? = none) :
    ⟨place ++ [i], some f, b, suffix'⟩ ∈ trace := by
  -- by the place of the use, from the outermost block in, as the expansion enters it
  induction hoccurs generalizing owner trace with
  | @here bs suffix n b' id f hn hid hdoc =>
      obtain ⟨inner, hinner, hmem⟩ := h.entered hn hid hdoc
      have hcopy := hmem _ (hinner.kept hb hkeep)
      rwa [Nat.zero_add, Nat.zero_add] at hcopy
  | @inside bs suffix n b' id f g place suffix' hn hid hdoc _ ih =>
      obtain ⟨inner, hinner, hmem⟩ := h.entered hn hid hdoc
      have hcopy := hmem _ (ih hinner hb)
      rwa [Nat.zero_add] at hcopy

/-- A use among some blocks is one among more of them. -/
theorem Occurs.cons {place : List Nat} {f : SubForm} {suffix' : String}
    (h : Occurs docs bs suffix place f suffix') (b : Block) :
    ∃ place', Occurs docs (b :: bs) suffix place' f suffix' := by
  cases h with
  | @here _ _ n _ _ _ hb hid hdoc => exact ⟨[n + 1], .here hb hid hdoc⟩
  | @inside _ _ n _ _ _ _ place _ hb hid hdoc hin =>
      exact ⟨(n + 1) :: place, .inside hb hid hdoc hin⟩

/-- **Every copy is one of a block that stays**, among those that are expanded or among those of a
sub-form that is used. -/
theorem Traced.source_cases (h : Traced docs owner n bs suffix trace) :
    ∀ c ∈ trace, c.source.expansion? = none
      ∧ ((c.owner = owner ∧ c.suffix = suffix ∧ c.source ∈ bs)
        ∨ ∃ f place, c.owner = some f ∧ c.source ∈ f.blocks
          ∧ Occurs docs bs suffix place f c.suffix) := by
  induction h with
  | nil => exact List.forall_mem_nil _
  | @keep owner n b bs suffix trace hkeep _ ih =>
      refine List.forall_mem_cons.mpr
        ⟨⟨hkeep, .inl ⟨rfl, rfl, List.mem_cons_self ..⟩⟩, fun c hc => ?_⟩
      obtain ⟨hstays, ⟨howner, hsuffix, hmem⟩ | ⟨f, place, howner, hmem, hoccurs⟩⟩ := ih c hc
      · exact ⟨hstays, .inl ⟨howner, hsuffix, List.mem_cons_of_mem _ hmem⟩⟩
      · obtain ⟨place', hoccurs'⟩ := hoccurs.cons b
        exact ⟨hstays, .inr ⟨f, place', howner, hmem, hoccurs'⟩⟩
  | @splice owner n b bs id suffix f inner trace hid hdoc _ _ ihin ih =>
      refine List.forall_mem_append.mpr ⟨fun c hc => ?_, fun c hc => ?_⟩
      · obtain ⟨c', hc', rfl⟩ := List.mem_map.mp hc
        obtain ⟨hstays, ⟨howner, hsuffix, hmem⟩ | ⟨g, place, howner, hmem, hoccurs⟩⟩ := ihin c' hc'
        · exact ⟨hstays, .inr ⟨f, [0], howner, hmem, hsuffix ▸ .here rfl hid hdoc⟩⟩
        · exact ⟨hstays, .inr ⟨g, 0 :: place, howner, hmem, .inside rfl hid hdoc hoccurs⟩⟩
      · obtain ⟨hstays, ⟨howner, hsuffix, hmem⟩ | ⟨g, place, howner, hmem, hoccurs⟩⟩ := ih c hc
        · exact ⟨hstays, .inl ⟨howner, hsuffix, List.mem_cons_of_mem _ hmem⟩⟩
        · obtain ⟨place', hoccurs'⟩ := hoccurs.cons b
          exact ⟨hstays, .inr ⟨g, place', howner, hmem, hoccurs'⟩⟩

theorem Occurs.known {place : List Nat} {f : SubForm} {suffix' : String}
    (h : Occurs docs bs suffix place f suffix') : ∃ id, docs id = some f := by
  induction h with
  | here _ _ hdoc => exact ⟨_, hdoc⟩
  | inside _ _ _ _ ih => exact ih

end Traces

/-! ## References -/

/-- The block that is put out at a place. -/
def CopyAt (trace : List Copy) (place : List Nat) (b : Block) : Prop :=
  ∃ c ∈ trace, c.place = place ∧ c.block = b

/-- A field of the block that is put out at a place. -/
def FieldAt (trace : List Copy) (place : List Nat) (k : Nat) (f : Field) : Prop :=
  ∃ b, CopyAt trace place b ∧ b.fields[k]? = some f

/-- What a use of a sub-form puts out refers to itself as the sub-form does. -/
structure Intact (trace : List Copy) (place : List Nat) (f : SubForm) : Prop where
  /-- Every block that stays has a copy, with an id that no other block of the result has. -/
  copied : ∀ (i : Nat) (b : Block), f.blocks[i]? = some b → b.expansion? = none →
    ∃ b', CopyAt trace (place ++ [i]) b'
      ∧ ∀ c ∈ trace, c.block.id = b'.id → c.place = place ++ [i]
  /-- The copy of a block that takes over a block names the copy of that. -/
  template : ∀ (i j : Nat) (b c : Block), f.blocks[i]? = some b → b.expansion? = none →
    f.blocks[j]? = some c → c.template? = some b.id →
    ∃ b' c', CopyAt trace (place ++ [i]) b' ∧ CopyAt trace (place ++ [j]) c'
      ∧ c'.repeatableBlockRef = some b'.id
  /-- The copy of a field that opens a block opens the copy of that, from the same button or entry
  of a menu. -/
  target : ∀ (i j k m : Nat) (b c : Block) (g : Field), f.blocks[i]? = some b →
    b.expansion? = none → f.blocks[j]? = some c → c.expansion? = none → c.fields[k]? = some g →
    (fieldTargets g)[m]? = some b.id →
    ∃ b' g', CopyAt trace (place ++ [i]) b' ∧ FieldAt trace (place ++ [j]) k g'
      ∧ (fieldTargets g')[m]? = some b'.id
  /-- The copies of two fields name one group exactly when the fields do. -/
  group : ∀ (i j k l : Nat) (b c : Block) (g h : Field), f.blocks[i]? = some b →
    b.expansion? = none → f.blocks[j]? = some c → c.expansion? = none → b.fields[k]? = some g →
    c.fields[l]? = some h →
    ∃ g' h', FieldAt trace (place ++ [i]) k g' ∧ FieldAt trace (place ++ [j]) l h'
      ∧ (ShareGroup g' h' ↔ ShareGroup g h)

section References

variable {docs : String → Option SubForm} {bs : List Block} {suffix suffix' : String}
  {trace : List Copy} {place : List Nat} {f : SubForm}

/-- **Each use of a sub-form is intact**, when no id repeats and no block of a sub-form stands for
two things. -/
theorem Traced.intact {owner : Option SubForm} (h : Traced docs owner 0 bs suffix trace)
    (hids : (trace.map fun c => c.block.id).Nodup)
    (hfree : ∀ id f, docs id = some f → ∀ b ∈ f.blocks, b.isConflicting = false)
    (hoccurs : Occurs docs bs suffix place f suffix') : Intact trace place f := by
  have hcopy : ∀ (i : Nat) (b : Block), f.blocks[i]? = some b → b.expansion? = none →
      CopyAt trace (place ++ [i]) (b.withSuffix suffix') :=
    fun i b hb hkeep => ⟨_, h.copied hoccurs hb hkeep, rfl, rfl⟩
  have hfield : ∀ (i k : Nat) (b : Block) (g : Field), f.blocks[i]? = some b →
      b.expansion? = none → b.fields[k]? = some g →
      FieldAt trace (place ++ [i]) k (g.withSuffix suffix') := by
    intro i k b g hb hkeep hg
    refine ⟨_, hcopy i b hb hkeep, ?_⟩
    rw [withSuffix_fields, List.getElem?_map, hg, Option.map_some]
  refine ⟨fun i b hb hkeep => ⟨_, hcopy i b hb hkeep, fun c hc hid => ?_⟩, ?_, ?_, ?_⟩
  · rw [List.inj_on_of_nodup_map hids hc (h.copied hoccurs hb hkeep) hid]
  · intro i j b c hb hkeep hc href
    -- a block that names a template stays, since it may not name a sub-form as well
    obtain ⟨id, hdoc⟩ := hoccurs.known
    have hstays : c.expansion? = none :=
      expansion?_of_template (hfree id f hdoc c (List.mem_of_getElem? hc)) href
    refine ⟨_, _, hcopy i b hb hkeep, hcopy j c hc hstays, ?_⟩
    rw [withSuffix_repeatableBlockRef, withSuffix_id, suffixReference_of_nonEmpty suffix' href]
  · intro i j k m b c g hb hkeep hc hkeep' hg htarget
    refine ⟨_, _, hcopy i b hb hkeep, hfield j k c g hc hkeep' hg, ?_⟩
    rw [fieldTargets_withSuffix, List.getElem?_map, htarget, Option.map_some, withSuffix_id]
  · intro i j k l b c g h hb hkeep hc hkeep' hg hh
    exact ⟨_, _, hfield i k b g hb hkeep hg, hfield j l c h hc hkeep' hh,
      shareGroup_withSuffix g h suffix'⟩

end References

/--
**Splicing keeps references intact.**

The result of a resolution of sub-forms that ends well is what its blocks stand for, copy by copy
and each at a place of its own. At every use of a sub-form, at any depth and under whatever suffix,
the copies of the blocks that stay refer to each other as the blocks do: by templates, from buttons
and menus, and in what they name as groups. And no other block of the result has the id of one of
them.
-/
theorem references_intact {σ : Type} {p : Provider σ} {limit : Int} {bs out : List Block} {s t : σ}
    (h : resolveSubForms p limit bs s = (.ok out, t)) :
    ∃ given trace, collectSubForms p bs s = (.ok given, t) ∧ Gives p s given t
      ∧ Traced (Ordered.get? given) none 0 bs "" trace
      ∧ trace.map Copy.block = out ∧ (trace.map Copy.place).Nodup
      ∧ ∀ place f suffix, Occurs (Ordered.get? given) bs "" place f suffix →
        Intact trace place f := by
  obtain ⟨catalog, hcol, hout⟩ := resolveSubForms_cases h
  obtain ⟨hgives, -, hfree⟩ := collectSubForms_gives hcol
  obtain ⟨trace, htrace, rfl⟩ := (resolveSubForms_given hcol hout).traced none 0
  refine ⟨catalog, trace, hcol, hgives, htrace, rfl, htrace.nodup_places, ?_⟩
  intro place f suffix hoccurs
  rcases hout with ⟨rfl, -⟩ | hsplice
  · -- nothing is used where nothing was given
    obtain ⟨id, hdoc⟩ := hoccurs.known
    cases hdoc
  · refine htrace.intact ?_ (fun id f hget => hfree (id, f) (mem_of_get? hget)) hoccurs
    have hnd := spliceSubForms_nodup hsplice
    rwa [List.map_map] at hnd

/-! ## An owner with spare phones -/

/-- A field whose menu opens two blocks, and whose button is a link to the first of them. -/
def openerField (id first second : String) : Field :=
  { textField id with
    kind := .button
    button := some ⟨.link, some first, some [⟨"", second, none⟩, ⟨"", first, none⟩]⟩ }

/-- A list of phones with one template for its rows, one group and one popin. -/
def phonesForm : SubForm where
  id := "phones"
  title := "Phones"
  version := "1.0"
  blocks := [rowsOf "list" "entry" [groupField "kind" "rows", openerField "ask" "help" "help"],
    fieldBlock "entry" [groupField "number" "rows", textField "note"], popinBlock "help"]
  submission := none

/-- A contact has a popin with the same id as its phones have, and its phones under a suffix. -/
def contactForm : SubForm where
  id := "contact"
  title := "Contact"
  version := "1.0"
  blocks := [fieldBlock "main" [openerField "ask" "help" "call"], useBlock "spare" "phones" "x",
    popinBlock "help", popinBlock "call"]
  submission := none

def phoneBook : Catalog := [("contact", contactForm), ("phones", phonesForm)]

def ownerBlocks : List Block :=
  [fieldBlock "main_a" [openerField "ask_a" "help_a" "call_a"],
    rowsOf "list_x_a" "entry_x_a"
      [groupField "kind_x_a" "rows_x_a", openerField "ask_x_a" "help_x_a" "help_x_a"],
    fieldBlock "entry_x_a" [groupField "number_x_a" "rows_x_a", textField "note_x_a"],
    popinBlock "help_x_a", popinBlock "help_a", popinBlock "call_a"]

theorem references_intact_owner :
    resolveSubForms (.ofCatalog phoneBook : Provider Unit) 50
        [useBlock "owner" "contact" "a"] () = (.ok ownerBlocks, ())
      ∧ Occurs (Ordered.get? phoneBook) [useBlock "owner" "contact" "a"] "" [0, 1]
        phonesForm "_x_a"
      ∧ ∃ trace : List Copy, trace.map Copy.block = ownerBlocks
        ∧ Intact trace [0] contactForm ∧ Intact trace [0, 1] phonesForm := by
  have hcol : collectSubForms (.ofCatalog phoneBook : Provider Unit)
      [useBlock "owner" "contact" "a"] () = (.ok phoneBook, ()) := by rfl
  have hrun : Splice.run phoneBook 50 []
      (Splice.enterAll [useBlock "owner" "contact" "a"] "") = .ok ownerBlocks := by
    show Splice.run _ _ _ [.enter _ _] = _
    rw [run_splice rfl rfl (by decide) rfl]
    show Splice.run _ _ _ [.enter _ _, .enter _ _, .enter _ _, .enter _ _, .leave] = _
    rw [run_keep rfl, run_splice rfl rfl (by decide) rfl]
    show Except.map _ (Splice.run _ _ _
      [.enter _ _, .enter _ _, .enter _ _, .leave, .enter _ _, .enter _ _, .leave]) = _
    rw [run_keep rfl, run_keep rfl, run_keep rfl, run_leave, run_keep rfl, run_keep rfl, run_leave,
      Splice.run]
    rfl
  have hres : resolveSubForms (.ofCatalog phoneBook : Provider Unit) 50
      [useBlock "owner" "contact" "a"] () = (.ok ownerBlocks, ()) := by
    rw [← spliceSubForms_eq_ok hrun (by decide)]
    exact resolveSubForms_eq hcol 50
  have hcontact : Occurs (Ordered.get? phoneBook) [useBlock "owner" "contact" "a"] "" [0]
      contactForm "_a" := .here (b := useBlock "owner" "contact" "a") rfl rfl rfl
  have hphones : Occurs (Ordered.get? phoneBook) [useBlock "owner" "contact" "a"] "" [0, 1]
      phonesForm "_x_a" :=
    .inside (b := useBlock "owner" "contact" "a") (f := contactForm) rfl rfl rfl
      (.here (b := useBlock "spare" "phones" "x") rfl rfl rfl)
  obtain ⟨given, trace, hgiven, -, -, hout, -, hintact⟩ := references_intact hres
  rw [hcol] at hgiven
  cases hgiven
  exact ⟨hres, hphones, trace, hout, hintact _ _ _ hcontact, hintact _ _ _ hphones⟩

end Formwork.Proofs
