import Formwork.Proofs.Answer
import Formwork.Proofs.Reference.Expansion
import Formwork.Reference.Resolution

/-!
# A resolved form is resolved for good

Resolution goes over a form twice: sub-forms are spliced, then templates are expanded.
Three things about its blocks are enough for the result to resolve to itself, and each
pass hands them on:

* no block names both a sub-form and a template;
* outside popins no block names a sub-form, once splicing is done;
* outside popins no block names a template, once templates are expanded.

A copy under a suffix names what the original names, so a conflict or a reference cannot
come in with a copy, and popins pass through both passes with what they name.
-/

namespace Formwork.Proofs

open Formwork

/-! ## Copies -/

/-- What is given under a suffix is what was given, with the suffix. -/
theorem nonEmpty?_suffixReference (ref : Option String) (suffix : String) :
    nonEmpty? (suffixReference ref suffix) = (nonEmpty? ref).map (· ++ suffix) := by
  unfold suffixReference
  cases h : nonEmpty? ref with
  | none => exact h
  | some r =>
      have hr : r ≠ "" := by simpa using (Option.filter_eq_some_iff.mp h).2
      have hne : r ++ suffix ≠ "" := by simp [hr]
      simp [nonEmpty?, hne]

section Copy

variable (b : Block) (suffix : String)

@[simp] theorem withSuffix_popin : (b.withSuffix suffix).popin = b.popin := by
  unfold Block.withSuffix
  split <;> rfl

@[simp] theorem withSuffix_subForm? : (b.withSuffix suffix).subForm? = b.subForm? := by
  unfold Block.withSuffix
  split <;> rfl

@[simp] theorem withSuffix_template?_isSome :
    (b.withSuffix suffix).template?.isSome = b.template?.isSome := by
  unfold Block.withSuffix
  split
  · rfl
  · show (nonEmpty? (suffixReference b.repeatableBlockRef suffix)).isSome = _
    rw [nonEmpty?_suffixReference, Option.isSome_map]
    rfl

@[simp] theorem withSuffix_isConflicting :
    (b.withSuffix suffix).isConflicting = b.isConflicting := by
  simp [Block.isConflicting]

@[simp] theorem withSuffix_expansion? : (b.withSuffix suffix).expansion? = b.expansion? := by
  simp [Block.expansion?]

end Copy

/-- What blocks stand for is made of copies, and only of blocks that stand for nothing else. -/
theorem Expands.mem_cases {docs : String → Option SubForm} {bs out : List Block} {suffix : String}
    (h : Expands docs bs suffix out) :
    ∀ b' ∈ out, ∃ (b : Block) (suffix' : String), b' = b.withSuffix suffix' ∧ b.expansion? = none
      ∧ (b ∈ bs ∨ ∃ id f, docs id = some f ∧ b ∈ f.blocks) := by
  induction h with
  | nil => intro b' hb'; exact absurd hb' List.not_mem_nil
  | @keep b bs out suffix hb _ ih =>
      intro b' hb'
      rcases List.mem_cons.mp hb' with rfl | hb'
      · exact ⟨b, suffix, rfl, hb, .inl (List.mem_cons_self ..)⟩
      · obtain ⟨b₀, s₀, heq, hnone, hin⟩ := ih b' hb'
        exact ⟨b₀, s₀, heq, hnone, hin.imp_left (List.mem_cons_of_mem _)⟩
  | @splice b bs inner out id suffix f _ hdoc _ _ ihin ihout =>
      intro b' hb'
      rcases List.mem_append.mp hb' with hb' | hb'
      · obtain ⟨b₀, s₀, heq, hnone, hin⟩ := ihin b' hb'
        exact ⟨b₀, s₀, heq, hnone, .inr (hin.elim (fun hmem => ⟨id, f, hdoc, hmem⟩) (fun hdocs => hdocs))⟩
      · obtain ⟨b₀, s₀, heq, hnone, hin⟩ := ihout b' hb'
        exact ⟨b₀, s₀, heq, hnone, hin.imp_left (List.mem_cons_of_mem _)⟩

/-! ## Splicing -/

/-- Ids are distinct when none of them repeats. -/
theorem firstRepeated?_eq_none {seen ids : List String} (h : firstRepeated? seen ids = none) :
    ids.Nodup ∧ ∀ id ∈ ids, id ∉ seen := by
  induction ids generalizing seen with
  | nil => exact ⟨List.Pairwise.nil, fun _ hid => absurd hid List.not_mem_nil⟩
  | cons id ids ih =>
      rw [firstRepeated?] at h
      split at h
      · cases h
      · rename_i hnew
        obtain ⟨hnd, hout⟩ := ih h
        have hseen : id ∉ seen := by simpa using hnew
        refine ⟨List.nodup_cons.mpr ⟨?_, hnd⟩, ?_⟩
        · intro hmem
          exact hout id hmem (List.mem_cons_self ..)
        · intro id' hid'
          rcases List.mem_cons.mp hid' with rfl | hid'
          · exact hseen
          · exact fun hmem => hout id' hid' (List.mem_cons_of_mem _ hmem)

theorem spliceSubForms_nodup {catalog : Catalog} {limit : Int} {bs out : List Block}
    (h : spliceSubForms catalog limit bs = .ok out) : (out.map Block.id).Nodup :=
  (firstRepeated?_eq_none (spliceSubForms_cases h).2).1

/-- Blocks that are spliced: their ids are distinct, none names both a sub-form and a template, and
outside popins none names a sub-form. -/
structure Spliced (bs : List Block) : Prop where
  distinct : (bs.map Block.id).Nodup
  free : ∀ b ∈ bs, b.isConflicting = false
  final : ∀ b ∈ bs, b.expansion? = none

theorem resolveSubForms_spliced {σ : Type} {p : Provider σ} {limit : Int} {bs out : List Block}
    {s t : σ} (hnd : (bs.map Block.id).Nodup) (hfree : ∀ b ∈ bs, b.isConflicting = false)
    (h : resolveSubForms p limit bs s = (.ok out, t)) : Spliced out := by
  obtain ⟨catalog, hcol, hout⟩ := resolveSubForms_cases h
  obtain ⟨-, -, hfetched⟩ := collectSubForms_gives hcol
  have hmem := (resolveSubForms_given hcol hout).mem_cases
  constructor
  · rcases hout with ⟨-, rfl⟩ | hsplice
    · exact hnd
    · exact spliceSubForms_nodup hsplice
  · intro b' hb'
    obtain ⟨b, suffix, rfl, -, hin⟩ := hmem b' hb'
    rw [withSuffix_isConflicting]
    rcases hin with hb | ⟨id, f, hget, hb⟩
    · exact hfree b hb
    · exact hfetched (id, f) (mem_of_get? hget) b hb
  · intro b' hb'
    obtain ⟨b, suffix, rfl, hnone, -⟩ := hmem b' hb'
    rw [withSuffix_expansion?, hnone]

/-! ## Expanding templates -/

section Chain

variable {all : List Block} {limit : Int} {path : List String} {b : Block}

/-- A chain ends at a block that names no template. -/
theorem chain_end (hb : b.template? = none) :
    Repeatable.chain all limit path b = .ok [] := by
  rw [Repeatable.chain]
  split
  · rfl
  · rename_i ref href
    rw [hb] at href
    cases href

/-- What becomes of a chain at a block that names a template. -/
theorem chain_named {ref : String} (hb : b.template? = some ref) :
    Repeatable.chain all limit path b =
      if path.contains ref then .error (.cyclic ref (path.reverse ++ [ref]))
      else if limit < path.length then .error (.depthExceeded ref path.length limit)
      else Repeatable.target all ref b.id >>= fun t =>
        (Repeatable.chain all limit (t.id :: path) t).map (t :: ·) := by
  rw [Repeatable.chain]
  split
  · rename_i hnone
    rw [hb] at hnone
    cases hnone
  · rename_i ref' href
    rw [hb] at href
    cases href
    simp only [dite_eq_ite, bind_ok_eq_map]

/-- A chain goes on with the template that a block names. -/
theorem chain_step {ref : String} {t : Block} (hb : b.template? = some ref)
    (hpath : path.contains ref = false) (hroom : (path.length : Int) ≤ limit)
    (ht : Repeatable.target all ref b.id = .ok t) :
    Repeatable.chain all limit path b =
      (Repeatable.chain all limit (t.id :: path) t).map (t :: ·) := by
  rw [chain_named hb, hpath, if_neg Bool.false_ne_true, if_neg (Int.not_lt.mpr hroom), ht, ok_bind]

/-- It is refused when its path is longer than the limit. -/
theorem chain_deep {ref : String} (hb : b.template? = some ref) (hpath : path.contains ref = false)
    (hroom : limit < path.length) :
    Repeatable.chain all limit path b = .error (.depthExceeded ref path.length limit) := by
  rw [chain_named hb, hpath, if_neg Bool.false_ne_true, if_pos hroom]

end Chain

section Expand

variable (used : List String) (b : Block) (ts : List Block)

/-- Outside popins a block names no template once its own is expanded. -/
theorem expand_template? : (Repeatable.expand used b ts).template? =
    if b.popin then b.template? else none := by
  unfold Repeatable.expand Block.template?
  cases hp : b.popin with
  | true => simp
  | false =>
      cases ht : nonEmpty? b.repeatableBlockRef with
      | none => simp [ht]
      | some ref => simp [nonEmpty?]

/-- A block is resolved when it is a popin or names nothing. -/
theorem isUnresolved_eq_false_iff :
    b.isUnresolved = false ↔ b.popin = true ∨ (b.subForm? = none ∧ b.template? = none) := by
  unfold Block.isUnresolved
  cases b.popin <;> simp

theorem expand_isUnresolved (h : b.expansion? = none) :
    (Repeatable.expand used b ts).isUnresolved = false := by
  have hsub : (Repeatable.expand used b ts).subForm? = b.subForm? := rfl
  have hpop : (Repeatable.expand used b ts).popin = b.popin := rfl
  unfold Block.isUnresolved
  rw [expand_template?, hsub, hpop]
  unfold Block.expansion? at h
  cases hp : b.popin with
  | true => simp
  | false =>
      rw [hp, if_neg Bool.false_ne_true] at h
      simp [h]

theorem expand_isConflicting (h : b.isConflicting = false) :
    (Repeatable.expand used b ts).isConflicting = false := by
  have hsub : (Repeatable.expand used b ts).subForm? = b.subForm? := rfl
  unfold Block.isConflicting at h ⊢
  rw [expand_template?, hsub]
  split
  · exact h
  · simp

end Expand

/-- Every block after the expansion of templates is an expanded block of before, in its place. -/
theorem resolveRepeatables_cases {limit : Int} {bs out : List Block}
    (h : resolveRepeatables limit bs = .ok out) :
    ∃ (used : List String) (chains : List (List Block)), chains.length = bs.length
      ∧ out = List.zipWith (Repeatable.expand used) bs chains := by
  unfold resolveRepeatables at h
  cases hchains : bs.mapM (Repeatable.templates bs limit) with
  | error e => rw [hchains] at h; cases h
  | ok chains =>
      rw [hchains] at h
      cases h
      exact ⟨_, chains, mapM_ok_length hchains, rfl⟩

theorem zipWith_expand_ids (used : List String) {bs : List Block} {chains : List (List Block)}
    (h : chains.length = bs.length) :
    (List.zipWith (Repeatable.expand used) bs chains).map Block.id = bs.map Block.id := by
  induction bs generalizing chains with
  | nil => rfl
  | cons b bs ih =>
      cases chains with
      | nil => cases h
      | cons ts chains =>
          rw [List.zipWith_cons_cons, List.map_cons, ih (Nat.succ.inj h)]
          rfl

/-- What is zipped is made of an element of each side. -/
theorem mem_zipWith {α β γ : Type} {g : α → β → γ} {xs : List α} {ys : List β} {z : γ}
    (h : z ∈ List.zipWith g xs ys) : ∃ x ∈ xs, ∃ y ∈ ys, z = g x y := by
  obtain ⟨i, hi, rfl⟩ := List.mem_iff_getElem.mp h
  rw [List.getElem_zipWith]
  exact ⟨_, List.getElem_mem _, _, List.getElem_mem _, rfl⟩

theorem mem_zipWith_expand {used : List String} {bs : List Block} {chains : List (List Block)}
    {b' : Block} (h : b' ∈ List.zipWith (Repeatable.expand used) bs chains) :
    ∃ b ∈ bs, ∃ ts, b' = Repeatable.expand used b ts := by
  obtain ⟨b, hb, ts, -, heq⟩ := mem_zipWith h
  exact ⟨b, hb, ts, heq⟩

/-! ## Nothing left to do -/

theorem expansion?_of_resolved {b : Block} (h : b.isUnresolved = false) : b.expansion? = none := by
  unfold Block.expansion?
  rcases (isUnresolved_eq_false_iff b).mp h with hp | ⟨hs, -⟩
  · rw [if_pos hp]
  · rw [hs, ite_self]

/-- A block that names a template stays, if it does not name a sub-form as well. -/
theorem expansion?_of_template {b : Block} {ref : String} (h : b.isConflicting = false)
    (href : b.template? = some ref) : b.expansion? = none := by
  rw [Block.isConflicting, href, Option.isSome_some, Bool.and_true, Option.isSome_eq_false_iff,
    Option.isNone_iff_eq_none] at h
  rw [Block.expansion?, h, ite_self]

/-- A resolved block takes no templates over, whatever the other blocks are. -/
theorem templates_of_resolved (all : List Block) (limit : Int) {b : Block}
    (h : b.isUnresolved = false) : Repeatable.templates all limit b = .ok [] := by
  unfold Repeatable.templates
  rcases (isUnresolved_eq_false_iff b).mp h with hp | ⟨-, ht⟩
  · rw [if_pos hp]
  · rw [chain_end ht, ite_self]

/-- A resolved block is its own expansion. -/
theorem expand_of_resolved {b : Block} (h : b.isUnresolved = false) :
    Repeatable.expand [] b [] = b := by
  have href : (b.popin || b.template?.isNone) = true := by
    rcases (isUnresolved_eq_false_iff b).mp h with hp | ⟨-, ht⟩
    · simp [hp]
    · simp [ht]
  have hover : Repeatable.takenOver b [] = [] := by
    simp [Repeatable.takenOver]
  unfold Repeatable.expand
  rw [if_pos href, hover, List.append_nil, List.contains_nil, Bool.or_false]

theorem resolveRepeatables_self (limit : Int) {bs : List Block}
    (h : ∀ b ∈ bs, b.isUnresolved = false) : resolveRepeatables limit bs = .ok bs := by
  have hchains := mapM_ok_of_forall (fun b hb => templates_of_resolved bs limit (h b hb))
  have hused : (bs.map fun _ => ([] : List Block)).flatten.map Block.id = [] := by
    simp
  have hzip : List.zipWith (Repeatable.expand []) bs (bs.map fun _ => []) = bs := by
    rw [List.zipWith_map_right, List.zipWith_self]
    exact (List.map_congr_left fun b hb => expand_of_resolved (h b hb)).trans (List.map_id _)
  unfold resolveRepeatables
  rw [hchains]
  show Except.ok (List.zipWith (Repeatable.expand _) bs _) = _
  rw [hused, hzip]

/-- The provider with a record of the ids that it is asked for. -/
def logged {σ : Type} (p : Provider σ) : Provider (σ × List String) where
  lookup id s := ((p.lookup id s.1).1, ((p.lookup id s.1).2, s.2 ++ [id]))
  available := p.available
  supply s := p.supply s.1

/-- The form resolves to itself at every provider and limit, and the provider is not asked. -/
def ResolvesToItself (f : Form) : Prop :=
  ∀ {τ : Type} (q : Provider τ) (limit : Int) (s : τ),
    f.resolveFrom q limit s = (.ok f, s)
      ∧ f.resolveFrom (logged q) limit (s, []) = (.ok f, (s, []))

/-- A form without conflicts resolves when both passes end well. -/
theorem resolveFrom_eq_ok {σ : Type} {p : Provider σ} {limit : Int} {f : Form} {s t : σ}
    {spliced out : List Block} (hfree : ∀ b ∈ f.blocks, b.isConflicting = false)
    (hsub : resolveSubForms p limit f.blocks s = (.ok spliced, t))
    (hrep : resolveRepeatables limit spliced = .ok out) :
    f.resolveFrom p limit s = (.ok { f with blocks := out }, t) := by
  unfold Form.resolveFrom
  rw [checkConflicts_eq_ok.mpr hfree]
  dsimp only
  rw [hsub]
  dsimp only
  rw [hrep]
  rfl

/-- A form with nothing left to do resolves to itself. -/
theorem resolveFrom_self {f : Form} (hfree : ∀ b ∈ f.blocks, b.isConflicting = false)
    (hres : ∀ b ∈ f.blocks, b.isUnresolved = false) {τ : Type} (q : Provider τ) (limit : Int)
    (s : τ) : f.resolveFrom q limit s = (.ok f, s) := by
  have hids : expansionIds f.blocks = [] :=
    expansionIds_eq_nil_iff.mpr fun b hb => expansion?_of_resolved (hres b hb)
  have hsub : resolveSubForms q limit f.blocks s = (.ok f.blocks, s) := by
    rw [resolveSubForms, collectSubForms_of_nil q hids]
  exact resolveFrom_eq_ok hfree hsub (resolveRepeatables_self limit hres)

theorem hasUnresolved_eq_false_iff {f : Form} :
    f.hasUnresolved = false ↔ ∀ b ∈ f.blocks, b.isUnresolved = false := by
  simp [Form.hasUnresolved]

/-- What a resolution that ends well went through. -/
theorem resolveFrom_cases {σ : Type} {p : Provider σ} {limit : Int} {f r : Form} {s t : σ}
    (h : f.resolveFrom p limit s = (.ok r, t)) :
    (∀ b ∈ f.blocks, b.isConflicting = false) ∧ ∃ spliced,
      resolveSubForms p limit f.blocks s = (.ok spliced, t)
        ∧ resolveRepeatables limit spliced = .ok r.blocks := by
  unfold Form.resolveFrom at h
  split at h
  · cases h
  · rename_i hconf
    split at h
    · cases h
    · rename_i spliced t' hsub
      cases hrep : resolveRepeatables limit spliced with
      | error e => rw [hrep] at h; cases h
      | ok out =>
          rw [hrep] at h
          cases h
          exact ⟨checkConflicts_eq_ok.mp hconf, spliced, hsub, hrep⟩

/--
**Resolution reaches a fixpoint.**

A form that resolution gives has nothing left to resolve outside popins, its block ids are distinct,
and it resolves to itself, at whatever limit and without a provider being asked. So does every form
without conflicts in which nothing but popins names a sub-form or a template.
-/
theorem resolveFrom_fixpoint :
    (∀ {σ : Type} (p : Provider σ) (limit : Int) (f r : Form) (s t : σ),
        (f.blocks.map Block.id).Nodup → f.resolveFrom p limit s = (.ok r, t) →
        r.hasUnresolved = false ∧ (r.blocks.map Block.id).Nodup ∧ ResolvesToItself r)
      ∧ ∀ f : Form, (∀ b ∈ f.blocks, b.isConflicting = false) → f.hasUnresolved = false →
        ResolvesToItself f := by
  have hself : ∀ f : Form, (∀ b ∈ f.blocks, b.isConflicting = false) →
      f.hasUnresolved = false → ResolvesToItself f := by
    intro f hfree hres τ q limit s
    have hres' := hasUnresolved_eq_false_iff.mp hres
    exact ⟨resolveFrom_self hfree hres' q limit s, resolveFrom_self hfree hres' (logged q) limit _⟩
  refine ⟨?_, hself⟩
  intro σ p limit f r s t hnd h
  obtain ⟨hfree, spliced, hsub, hrep⟩ := resolveFrom_cases h
  obtain ⟨hdist, hfree', hfinal⟩ := resolveSubForms_spliced hnd hfree hsub
  obtain ⟨used, chains, hlen, hout⟩ := resolveRepeatables_cases hrep
  have hmem : ∀ b' ∈ r.blocks, ∃ b ∈ spliced, ∃ ts, b' = Repeatable.expand used b ts := by
    rw [hout]
    exact fun b' hb' => mem_zipWith_expand hb'
  have hresolved : r.hasUnresolved = false := by
    refine hasUnresolved_eq_false_iff.mpr fun b' hb' => ?_
    obtain ⟨b, hb, ts, rfl⟩ := hmem b' hb'
    exact expand_isUnresolved used b ts (hfinal b hb)
  have hfreeOut : ∀ b' ∈ r.blocks, b'.isConflicting = false := by
    intro b' hb'
    obtain ⟨b, hb, ts, rfl⟩ := hmem b' hb'
    exact expand_isConflicting used b ts (hfree' b hb)
  refine ⟨hresolved, ?_, hself r hfreeOut hresolved⟩
  rw [hout, zipWith_expand_ids used hlen]
  exact hdist

/-! ## An applicant with phones and a dialog -/

/-- A dialog that keeps the sub-form it names. -/
def dialogBlock : Block := { useBlock "dialog" "address" "b" with popin := true }

/-- Phones, which take their field from a template. -/
def phonesBlock : Block :=
  { fieldBlock "phones" [] with repeatable := true, repeatableBlockRef := some "phone" }

def phoneBlock : Block := fieldBlock "phone" [textField "number"]

def applicantForm : Form :=
  ⟨none, none, "1.0", [useBlock "x" "person" "a", dialogBlock, phonesBlock, phoneBlock], none⟩

/-- The form once its sub-form is spliced. -/
def splicedApplicant : List Block := applicantBlocks ++ [dialogBlock, phonesBlock, phoneBlock]

/-- The dialog is as it was, the phones have their field, and the template is kept as one. -/
def resolvedApplicant : Form :=
  ⟨none, none, "1.0",
    applicantBlocks ++
      [dialogBlock,
        { fieldBlock "phones"
            [{ textField "phones.number" with repeatableGroupId := some "phones" }] with
          repeatable := true },
        { phoneBlock with templateOnly := true }], none⟩

theorem resolveFrom_fixpoint_applicant :
    (applicantForm.blocks.map Block.id).Nodup
      ∧ applicantForm.resolveFrom (.ofCatalog personCatalog : Provider Unit) 50 () =
        (.ok resolvedApplicant, ())
      ∧ resolvedApplicant.hasUnresolved = false
      ∧ (resolvedApplicant.blocks.map Block.id).Nodup
      ∧ ResolvesToItself resolvedApplicant := by
  have hcol : collectSubForms (.ofCatalog personCatalog : Provider Unit) applicantForm.blocks () =
      (.ok personCatalog, ()) := by rfl
  have hsplice : spliceSubForms personCatalog 50 applicantForm.blocks = .ok splicedApplicant := by
    unfold spliceSubForms
    show (Splice.run _ _ _ (.enter (useBlock "x" "person" "a") "" :: _) >>= _) = _
    rw [run_applicant, List.map_cons, run_keep rfl, List.map_cons, run_keep rfl, List.map_cons,
      run_keep rfl, List.map_nil, Splice.run]
    rfl
  have hphones : Repeatable.templates splicedApplicant 50 phonesBlock = .ok [phoneBlock] := by
    show Repeatable.chain _ _ _ _ = _
    rw [chain_step (t := phoneBlock) rfl rfl (by decide) rfl, chain_end rfl]
    rfl
  have hchains : splicedApplicant.mapM (Repeatable.templates splicedApplicant 50) =
      .ok [[], [], [], [phoneBlock], []] := by
    show List.mapM _ [fieldBlock "identity_a" _, fieldBlock "place_inner_a" _, dialogBlock,
      phonesBlock, phoneBlock] = _
    simp only [List.mapM_cons, List.mapM_nil]
    rw [templates_of_resolved, templates_of_resolved, templates_of_resolved, hphones,
      templates_of_resolved]
    all_goals rfl
  have hres : applicantForm.resolveFrom (.ofCatalog personCatalog : Provider Unit) 50 () =
      (.ok resolvedApplicant, ()) := by
    have hsub : resolveSubForms (.ofCatalog personCatalog : Provider Unit) 50
        applicantForm.blocks () = (.ok splicedApplicant, ()) := by
      rw [← hsplice]
      exact resolveSubForms_eq hcol 50
    have hrep : resolveRepeatables 50 splicedApplicant = .ok resolvedApplicant.blocks := by
      rw [resolveRepeatables, hchains]
      rfl
    exact resolveFrom_eq_ok (by decide) hsub hrep
  have hnd : (applicantForm.blocks.map Block.id).Nodup := by decide
  obtain ⟨h1, h2, h3⟩ := resolveFrom_fixpoint.1 _ 50 applicantForm _ () () hnd hres
  exact ⟨hnd, hres, h1, h2, h3⟩

end Formwork.Proofs
