import Formwork.Proofs.Reference.Collection
import Formwork.Proofs.Sample
import Formwork.Reference.Splice

/-!
# Splicing is expansion

What a list of blocks stands for is said by recursion (`Expands`): a block that stands
for a sub-form gives way to what the blocks of that sub-form stand for, in its place and
under its own suffix put before the outer one; every other block is copied under the
suffix. References may form any graph, so this is a relation and not a function: it holds
where the recursion ends, and then of one list only (`Expands.unique`).

Splicing works through a stack of tasks instead. A stack stands for what its blocks stand
for, one after another, whatever marks lie between them (`Pending`), and a run that ends
well has put out just that. Entering a sub-form replaces a block by its expansion on the
stack; the mark under it only counts the sub-forms in progress.
-/

namespace Formwork.Proofs

open Formwork

/-- What blocks stand for under a suffix, when sub-forms are taken from `docs`. -/
inductive Expands (docs : String → Option SubForm) : List Block → String → List Block → Prop where
  | nil {suffix : String} : Expands docs [] suffix []
  | keep {b : Block} {bs out : List Block} {suffix : String} :
      b.expansion? = none → Expands docs bs suffix out →
      Expands docs (b :: bs) suffix (b.withSuffix suffix :: out)
  | splice {b : Block} {bs inner out : List Block} {id suffix : String} {f : SubForm} :
      b.expansion? = some id → docs id = some f →
      Expands docs f.blocks (b.instanceSuffix ++ suffix) inner → Expands docs bs suffix out →
      Expands docs (b :: bs) suffix (inner ++ out)

namespace Expands

variable {docs docs' : String → Option SubForm} {bs out out' : List Block} {suffix : String}

/-- **Blocks stand for one list only.** -/
theorem unique (h : Expands docs bs suffix out) (h' : Expands docs bs suffix out') : out = out' := by
  induction h generalizing out' with
  | nil => cases h'; rfl
  | keep hb _ ih =>
      cases h' with
      | keep _ h' => rw [ih h']
      | splice hid _ _ _ => rw [hb] at hid; cases hid
  | splice hid hdoc _ _ ihin ihout =>
      cases h' with
      | keep hb _ => rw [hid] at hb; cases hb
      | splice hid' hdoc' hin' hout' =>
          rw [hid] at hid'; cases hid'
          rw [hdoc] at hdoc'; cases hdoc'
          rw [ihin hin', ihout hout']

/-- More documents change nothing. -/
theorem mono (hdocs : ∀ id f, docs id = some f → docs' id = some f)
    (h : Expands docs bs suffix out) : Expands docs' bs suffix out := by
  induction h with
  | nil => exact .nil
  | keep hb _ ih => exact .keep hb ih
  | splice hid hdoc _ _ ihin ihout => exact .splice hid (hdocs _ _ hdoc) ihin ihout

/-- Blocks are expanded in their order. -/
theorem append {bs' : List Block} (h : Expands docs bs suffix out)
    (h' : Expands docs bs' suffix out') : Expands docs (bs ++ bs') suffix (out ++ out') := by
  induction h with
  | nil => exact h'
  | keep hb _ ih => exact .keep hb (ih h')
  | splice hid hdoc hin _ _ ihout =>
      rw [List.append_assoc]
      exact .splice hid hdoc hin (ihout h')

end Expands

theorem withSuffix_empty (b : Block) : b.withSuffix "" = b := by
  simp [Block.withSuffix]

/-- Blocks that stand for nothing else stand for themselves. -/
theorem expands_self (docs : String → Option SubForm) {bs : List Block}
    (h : ∀ b ∈ bs, b.expansion? = none) : Expands docs bs "" bs := by
  induction bs with
  | nil => exact .nil
  | cons b bs ih =>
      have hkeep := Expands.keep (h b (List.mem_cons_self ..))
        (ih (fun b hb => h b (List.mem_cons_of_mem _ hb)))
      rwa [withSuffix_empty] at hkeep

/-! ## One task at a time -/

section Tasks

variable {catalog : Catalog} {limit : Int} {path : List String} {rest : List SpliceTask}
  {b : Block} {suffix : String}

theorem run_leave :
    Splice.run catalog limit path (.leave :: rest) = Splice.run catalog limit path.tail rest := by
  rw [Splice.run]

/-- A block that stands for nothing else is put out. -/
theorem run_keep (hb : b.expansion? = none) :
    Splice.run catalog limit path (.enter b suffix :: rest) =
      (Splice.run catalog limit path rest).map (b.withSuffix suffix :: ·) := by
  rw [Splice.run]
  split
  · rfl
  · rename_i id hid
    rw [hb] at hid
    cases hid

/-- What becomes of a block that stands for a sub-form. -/
theorem run_named {id : String} (hid : b.expansion? = some id) :
    Splice.run catalog limit path (.enter b suffix :: rest) =
      if path.contains id then .error (.cyclic id (path.reverse ++ [id]))
      else if limit ≤ path.length then .error (.depthExceeded id (path.length + 1) limit)
      else
        match Ordered.get? catalog id with
        | none => .error (.missingSubForm id [])
        | some f => Splice.run catalog limit (id :: path)
            (Splice.enterAll f.blocks (b.instanceSuffix ++ suffix) ++ .leave :: rest) := by
  rw [Splice.run]
  split
  · rename_i hb
    rw [hid] at hb
    cases hb
  · rename_i id' hid'
    rw [hid] at hid'
    cases hid'
    simp only [dite_eq_ite]
    split
    · rfl
    · split
      · rfl
      · split <;> rename_i hget <;> rw [hget]

/-- A block that stands for a sub-form gives way to its blocks, with a mark under them. -/
theorem run_splice {id : String} {f : SubForm} (hid : b.expansion? = some id)
    (hpath : path.contains id = false) (hroom : (path.length : Int) < limit)
    (hget : Ordered.get? catalog id = some f) :
    Splice.run catalog limit path (.enter b suffix :: rest) =
      Splice.run catalog limit (id :: path)
        (Splice.enterAll f.blocks (b.instanceSuffix ++ suffix) ++ .leave :: rest) := by
  rw [run_named hid, hpath, if_neg Bool.false_ne_true, if_neg (Int.not_le.mpr hroom), hget]

/-- It is refused when too many are in progress. -/
theorem run_deep {id : String} (hid : b.expansion? = some id)
    (hpath : path.contains id = false) (hroom : limit ≤ path.length) :
    Splice.run catalog limit path (.enter b suffix :: rest) =
      .error (.depthExceeded id (path.length + 1) limit) := by
  rw [run_named hid, hpath, if_neg Bool.false_ne_true, if_pos hroom]

end Tasks

/-! ## Stacks of tasks -/

/-- What a stack of tasks has still to put out. -/
inductive Pending (docs : String → Option SubForm) : List SpliceTask → List Block → Prop where
  | nil : Pending docs [] []
  | leave {tasks : List SpliceTask} {out : List Block} :
      Pending docs tasks out → Pending docs (.leave :: tasks) out
  | enter {b : Block} {suffix : String} {tasks : List SpliceTask} {inner out : List Block} :
      Expands docs [b] suffix inner → Pending docs tasks out →
      Pending docs (.enter b suffix :: tasks) (inner ++ out)

/-- What is put out for blocks on top of a stack is their expansion, before the rest. -/
theorem Pending.enterAll {docs : String → Option SubForm} {bs : List Block} {suffix : String}
    {tasks : List SpliceTask} {out : List Block}
    (h : Pending docs (Splice.enterAll bs suffix ++ tasks) out) :
    ∃ inner rest, out = inner ++ rest ∧ Expands docs bs suffix inner ∧ Pending docs tasks rest := by
  induction bs generalizing out with
  | nil => exact ⟨[], out, rfl, .nil, h⟩
  | cons b bs ih =>
      cases h with
      | enter hb htasks =>
          obtain ⟨inner, rest, rfl, hbs, hrest⟩ := ih htasks
          exact ⟨_ ++ inner, rest, (List.append_assoc ..).symm, hb.append hbs, hrest⟩

/-- **A run of splicing that ends well puts out what its stack stands for.** -/
theorem run_pending {catalog : Catalog} {limit : Int} {path : List String}
    {tasks : List SpliceTask} {out : List Block}
    (h : Splice.run catalog limit path tasks = .ok out) :
    Pending (Ordered.get? catalog) tasks out := by
  fun_induction Splice.run catalog limit path tasks generalizing out with
  | case1 => cases h; exact .nil
  | case2 path rest ih => exact .leave (ih h)
  | case3 path b suffix rest hb ih =>
      cases hrun : Splice.run catalog limit path rest with
      | error e => rw [hrun] at h; cases h
      | ok out' =>
          rw [hrun] at h
          cases h
          exact .enter (.keep hb .nil) (ih hrun)
  | case4 => cases h
  | case5 => cases h
  | case6 => cases h
  | case7 path b suffix rest id hid _ _ f hget ih =>
      -- below the mark lies what was there before
      obtain ⟨inner, out', rfl, hin, hmark⟩ := (ih h).enterAll
      cases hmark with
      | leave hrest =>
          have hb := Expands.splice hid hget hin .nil
          rw [List.append_nil] at hb
          exact .enter hb hrest

theorem spliceSubForms_eq_ok {catalog : Catalog} {limit : Int} {bs out : List Block}
    (hrun : Splice.run catalog limit [] (Splice.enterAll bs "") = .ok out)
    (hids : firstRepeated? [] (out.map Block.id) = none) :
    spliceSubForms catalog limit bs = .ok out := by
  unfold spliceSubForms
  simp only [hrun, bind, Except.bind, hids]

/-- Splicing that ends well is a run that ends well, without a repeated id. -/
theorem spliceSubForms_cases {catalog : Catalog} {limit : Int} {bs out : List Block}
    (h : spliceSubForms catalog limit bs = .ok out) :
    Splice.run catalog limit [] (Splice.enterAll bs "") = .ok out
      ∧ firstRepeated? [] (out.map Block.id) = none := by
  unfold spliceSubForms at h
  cases hrun : Splice.run catalog limit [] (Splice.enterAll bs "") with
  | error e => rw [hrun] at h; cases h
  | ok spliced =>
      rw [hrun] at h
      simp only [bind, Except.bind] at h
      split at h
      · cases h
      · rename_i hrep
        cases h
        exact ⟨rfl, hrep⟩

/-- A run over blocks that ends well puts out their expansion. -/
theorem run_expands {catalog : Catalog} {limit : Int} {bs out : List Block}
    (h : Splice.run catalog limit [] (Splice.enterAll bs "") = .ok out) :
    Expands (Ordered.get? catalog) bs "" out := by
  have hpend := run_pending h
  rw [← List.append_nil (Splice.enterAll bs "")] at hpend
  obtain ⟨inner, rest, rfl, hin, hrest⟩ := hpend.enterAll
  cases hrest
  rwa [List.append_nil]

/-- Splicing that ends well is expansion. -/
theorem spliceSubForms_expands {catalog : Catalog} {limit : Int} {bs out : List Block}
    (h : spliceSubForms catalog limit bs = .ok out) :
    Expands (Ordered.get? catalog) bs "" out :=
  run_expands (spliceSubForms_cases h).1

/-- A block that stands for nothing else is asked for nothing. -/
theorem expansionIds_eq_nil_iff {bs : List Block} :
    expansionIds bs = [] ↔ ∀ b ∈ bs, b.expansion? = none := by
  simp [expansionIds, List.filterMap_eq_nil_iff]

/-- What has been collected is spliced, if it is anything. -/
theorem resolveSubForms_eq {σ : Type} {p : Provider σ} {bs : List Block} {s t : σ}
    {entry : String × SubForm} {catalog : Catalog}
    (h : collectSubForms p bs s = (.ok (entry :: catalog), t)) (limit : Int) :
    resolveSubForms p limit bs s = (spliceSubForms (entry :: catalog) limit bs, t) := by
  rw [resolveSubForms, h]

/-- What a resolution that ends well has collected, and what it made of it. -/
theorem resolveSubForms_cases {σ : Type} {p : Provider σ} {limit : Int} {bs out : List Block}
    {s t : σ} (h : resolveSubForms p limit bs s = (.ok out, t)) :
    ∃ catalog, collectSubForms p bs s = (.ok catalog, t)
      ∧ ((catalog = [] ∧ out = bs) ∨ spliceSubForms catalog limit bs = .ok out) := by
  unfold resolveSubForms at h
  split at h
  · cases h
  · rename_i hcol
    cases h
    exact ⟨[], hcol, .inl ⟨rfl, rfl⟩⟩
  · rename_i catalog _ _ hcol
    simp only [Prod.mk.injEq] at h
    obtain ⟨hsplice, rfl⟩ := h
    exact ⟨catalog, hcol, .inr hsplice⟩

theorem resolveSubForms_given {σ : Type} {p : Provider σ} {limit : Int} {bs out : List Block}
    {s t : σ} {catalog : Catalog} (hcol : collectSubForms p bs s = (.ok catalog, t))
    (h : (catalog = [] ∧ out = bs) ∨ spliceSubForms catalog limit bs = .ok out) :
    Expands (Ordered.get? catalog) bs "" out := by
  rcases h with ⟨rfl, rfl⟩ | hsplice
  · exact expands_self _ (expansionIds_eq_nil_iff.mp (expansionIds_of_collect_nil hcol))
  · exact spliceSubForms_expands hsplice

/--
**Resolving sub-forms is expanding them.**

Whatever the blocks, the provider and the limit: a resolution that ends well has asked for each
sub-form once, and its result is the one list that the blocks stand for when sub-forms are taken from
what was given. For a provider that always answers alike, that is what they stand for when sub-forms
are taken from it.
-/
theorem resolveSubForms_expands {σ : Type} {p : Provider σ} {limit : Int} {bs out : List Block}
    {s t : σ} (h : resolveSubForms p limit bs s = (.ok out, t)) :
    (∃ given, Gives p s given t ∧ (Ordered.keys given).Nodup
        ∧ ∀ out', Expands (Ordered.get? given) bs "" out' ↔ out' = out)
      ∧ ∀ docs, Serves p docs → ∀ out', Expands docs bs "" out' ↔ out' = out := by
  obtain ⟨catalog, hcol, hout⟩ := resolveSubForms_cases h
  obtain ⟨hgives, hkeys, -⟩ := collectSubForms_gives hcol
  have hexp := resolveSubForms_given hcol hout
  refine ⟨⟨catalog, hgives, hkeys, fun out' => ⟨fun h' => h'.unique hexp, ?_⟩⟩, ?_⟩
  · rintro rfl; exact hexp
  · intro docs hdocs out'
    have hall : Expands docs bs "" out :=
      hexp.mono (fun id f hget => hgives.serves hdocs _ (mem_of_get? hget))
    refine ⟨fun h' => h'.unique hall, ?_⟩
    rintro rfl; exact hall

/-! ## A person with an address -/

/-- A block that stands for a sub-form, as an instance of it. -/
def useBlock (id subForm : String) (instance? : String) : Block :=
  { fieldBlock id [] with subFormRef := some subForm, subFormInstanceId := some instance? }

/-- A person has a name and an address, which is a sub-form of its own. -/
def personCatalog : Catalog :=
  [("person", ⟨"person", "Person", "1.0",
      [fieldBlock "identity" [textField "name"], useBlock "home" "address" "inner"], none⟩),
    ("address", ⟨"address", "Address", "1.0", [fieldBlock "place" [textField "street"]], none⟩)]

/-- The applicant's blocks, under the applicant's suffix behind the suffixes inside. -/
def applicantBlocks : List Block :=
  [fieldBlock "identity_a" [textField "name_a"], fieldBlock "place_inner_a" [textField "street_inner_a"]]

/-- The applicant's block gives way to the applicant's blocks, whatever is under it. -/
theorem run_applicant (rest : List SpliceTask) :
    Splice.run personCatalog 50 [] (.enter (useBlock "x" "person" "a") "" :: rest) =
      (Splice.run personCatalog 50 [] rest).map (applicantBlocks ++ ·) := by
  rw [run_splice rfl rfl (by decide) rfl]
  show Splice.run _ _ _
    (.enter _ _ :: .enter (useBlock "home" "address" "inner") _ :: .leave :: rest) = _
  rw [run_keep rfl, run_splice rfl rfl (by decide) rfl]
  show Except.map _ (Splice.run _ _ _ (.enter _ _ :: .leave :: .leave :: rest)) = _
  rw [run_keep rfl, run_leave, run_leave]
  show Except.map _ (Except.map _ (Splice.run personCatalog 50 [] rest)) = _
  cases Splice.run personCatalog 50 [] rest <;> rfl

theorem resolveSubForms_expands_applicant :
    resolveSubForms (.ofCatalog personCatalog : Provider Unit) 50 [useBlock "x" "person" "a"] () =
        (.ok applicantBlocks, ())
      ∧ Serves (.ofCatalog personCatalog : Provider Unit) (Ordered.get? personCatalog)
      ∧ ∀ out, Expands (Ordered.get? personCatalog) [useBlock "x" "person" "a"] "" out
          ↔ out = applicantBlocks := by
  have hcol : collectSubForms (.ofCatalog personCatalog : Provider Unit)
      [useBlock "x" "person" "a"] () = (.ok personCatalog, ()) := by rfl
  have hsplice : spliceSubForms personCatalog 50 [useBlock "x" "person" "a"] =
      .ok applicantBlocks := by
    unfold spliceSubForms
    rw [Splice.enterAll, List.map_cons, run_applicant, List.map_nil, Splice.run]
    rfl
  have hres : resolveSubForms (.ofCatalog personCatalog : Provider Unit) 50
      [useBlock "x" "person" "a"] () = (.ok applicantBlocks, ()) := by
    rw [← hsplice]
    exact resolveSubForms_eq hcol 50
  have hserves : Serves (.ofCatalog personCatalog : Provider Unit) (Ordered.get? personCatalog) := by
    intro id s found h
    exact (Except.ok.inj h).symm
  exact ⟨hres, hserves, (resolveSubForms_expands hres).2 _ hserves⟩

end Formwork.Proofs
