import Formwork.Proofs.Reference.Fixpoint
import Mathlib.Data.List.Nodup
import Mathlib.Data.List.Forall2
import Mathlib.Data.List.Pairwise
import Mathlib.Data.List.TakeWhile

/-!
# Instances of one sub-form

A form that uses one sub-form several times gets a copy of it for each use, whose ids end
in an underscore and the name of the instance. Splicing looks at the ids of blocks and
refuses to repeat one. It does not look at the ids of fields, so these have to be told
apart by their suffixes.

They are, unless a name of an instance ends in the suffix of another, and what is before it
is also what one field adds to the id of another (`Confusable`): the copy of the shorter id
under the longer name is then the copy of the longer id under the shorter name. That is the
only way (`withSuffix_eq_iff`), since two ids with a suffix each are one text only if it is
cut at two underscores.
-/

namespace Formwork.Proofs

open Formwork

/-- Each block stands for the sub-form with this id, as the instance with the name in its place. -/
def UsesOnly (id : String) (names : List String) (bs : List Block) : Prop :=
  List.Forall₂ (fun b n => b.expansion? = some id ∧ nonEmpty? b.subFormInstanceId = some n) bs names

/-- The copies of blocks for instances with these names. -/
def copies (names : List String) (bs : List Block) : List Block :=
  names.flatMap fun n => bs.map fun b => b.withSuffix ("_" ++ n)

/-- One id is another with something behind it, and one name is another with the same in front. -/
def Confusable (ids names : List String) : Prop :=
  ∃ i ∈ ids, ∃ n ∈ names, ∃ x, i ++ "_" ++ x ∈ ids ∧ x ++ "_" ++ n ∈ names

/-! ## Copies -/

section Uses

variable {docs : String → Option SubForm} {σ : Type} {p : Provider σ} {limit : Int} {s t u : σ}
  {id : String} {f : SubForm} {names : List String} {bs : List Block}

/-- Blocks that stand for nothing else are copied. -/
theorem expands_copied (h : ∀ b ∈ bs, b.expansion? = none) (suffix : String) :
    Expands docs bs suffix (bs.map fun b => b.withSuffix suffix) := by
  induction bs with
  | nil => exact .nil
  | cons b bs ih =>
      obtain ⟨hb, hbs⟩ := List.forall_mem_cons.mp h
      exact .keep hb (ih hbs)

/-- Uses of a sub-form that leads nowhere stand for its copies. -/
theorem expands_uses (hdoc : docs id = some f) (hleaf : ∀ b ∈ f.blocks, b.expansion? = none)
    (huses : UsesOnly id names bs) : Expands docs bs "" (copies names f.blocks) := by
  induction huses with
  | nil => exact .nil
  | @cons b n bs names huse _ ih =>
      obtain ⟨hid, hname⟩ := huse
      have hsuffix : b.instanceSuffix ++ "" = "_" ++ n := by
        rw [Block.instanceSuffix, hname, String.append_empty]
      rw [copies, List.flatMap_cons]
      refine .splice hid hdoc ?_ ih
      rw [hsuffix]
      exact expands_copied hleaf _

theorem expansionIds_of_uses (huses : UsesOnly id names bs) :
    expansionIds bs = names.map fun _ => id := by
  induction huses with
  | nil => rfl
  | cons huse _ ih =>
      rw [expansionIds, List.filterMap_cons_some huse.1, List.map_cons]
      exact congrArg _ ih

/-- With nothing pending a collection has ended. -/
theorem run_of_no_pending {c : Collection} (h : c.pending = []) (fuel : Nat) :
    Collection.run p fuel c s = (.ok c.fetched, s) := by
  cases fuel with
  | zero => rfl
  | succ fuel => rw [Collection.run, h]

/-- A sub-form that leads nowhere is all that is collected for uses of it. -/
theorem collectSubForms_uses (hlook : p.lookup id s = (.ok (some f), t))
    (hleaf : ∀ b ∈ f.blocks, b.expansion? = none) (huses : UsesOnly id names bs)
    (hsome : names ≠ []) {catalog : Catalog}
    (h : collectSubForms p bs s = (.ok catalog, u)) : catalog = [(id, f)] := by
  obtain ⟨n, names, rfl⟩ := List.exists_cons_of_ne_nil hsome
  have hqueue := expansionIds_of_uses huses
  have hpending : (Collection.mk (expansionIds bs) []).pending = expansionIds bs := by
    rw [hqueue]
    rfl
  rcases run_succ_cases h with ⟨hnone, -, -⟩ | ⟨id', rest, f', s', hpend, hlook', -, hrun⟩
  · rw [hpending, hqueue] at hnone
    cases hnone
  · rw [hpending, hqueue] at hpend
    obtain ⟨rfl, rfl⟩ := List.cons.inj hpend
    rw [hlook] at hlook'
    obtain ⟨hfound, rfl⟩ := Prod.mk.inj hlook'
    obtain rfl := Option.some.inj (Except.ok.inj hfound)
    -- the other uses ask for what has been fetched
    have hdone : ((Collection.mk (expansionIds bs) []).add id (names.map fun _ => id) f).pending =
        [] := by
      have hfound : Ordered.has (Ordered.insert [] id f) id = true := by
        rw [Ordered.has, Ordered.get?_insert, if_pos (beq_self_eq_true id)]
        rfl
      rw [Collection.add, expansionIds_eq_nil_iff.mpr hleaf, List.append_nil, Collection.pending,
        List.dropWhile_eq_nil_iff]
      intro other hother
      obtain ⟨-, -, rfl⟩ := List.mem_map.mp hother
      exact hfound
    rw [run_of_no_pending hdone] at hrun
    exact (Except.ok.inj (Prod.mk.inj hrun).1).symm

/-- A copy of a block that stands for nothing else does not either. -/
theorem withSuffix_isUnresolved {b : Block} (h : b.isUnresolved = false) (suffix : String) :
    (b.withSuffix suffix).isUnresolved = false := by
  rw [isUnresolved_eq_false_iff] at h ⊢
  rw [withSuffix_popin, withSuffix_subForm?,
    ← Option.not_isSome_iff_eq_none (o := Block.template? _),
    withSuffix_template?_isSome, Option.not_isSome_iff_eq_none]
  exact h

/-- **A form that only uses one sub-form is resolved to its copies.** -/
theorem resolveFrom_uses {d r : Form} (hlook : p.lookup id s = (.ok (some f), t))
    (hleaf : ∀ b ∈ f.blocks, b.isUnresolved = false) (huses : UsesOnly id names d.blocks)
    (h : d.resolveFrom p limit s = (.ok r, u)) : r.blocks = copies names f.blocks := by
  have hleaf' : ∀ b ∈ f.blocks, b.expansion? = none :=
    fun b hb => expansion?_of_resolved (hleaf b hb)
  obtain ⟨-, spliced, hsub, hrep⟩ := resolveFrom_cases h
  have hspliced : spliced = copies names f.blocks := by
    obtain ⟨catalog, hcol, hout⟩ := resolveSubForms_cases hsub
    have hexp := resolveSubForms_given hcol hout
    cases hnames : names with
    | nil =>
        rw [hnames] at huses
        rw [List.forall₂_nil_right_iff.mp huses] at hexp
        exact hexp.unique .nil
    | cons n rest =>
        rw [← hnames]
        have hcatalog := collectSubForms_uses hlook hleaf' huses (by simp [hnames]) hcol
        rw [hcatalog] at hexp
        have hget : Ordered.get? [(id, f)] id = some f := by
          rw [Ordered.get?_cons, if_pos (beq_self_eq_true id)]
        exact hexp.unique (expands_uses hget hleaf' huses)
  have hresolved : ∀ b ∈ spliced, b.isUnresolved = false := by
    intro b hb
    rw [hspliced, copies] at hb
    obtain ⟨n, -, hb⟩ := List.mem_flatMap.mp hb
    obtain ⟨b', hb', rfl⟩ := List.mem_map.mp hb
    exact withSuffix_isUnresolved (hleaf b' hb') _
  rw [resolveRepeatables_self limit hresolved] at hrep
  rw [← hspliced]
  exact (Except.ok.inj hrep).symm

end Uses

/-! ## Ids with a suffix -/

theorem suffix_ne_empty (n : String) : "_" ++ n ≠ "" := by
  simp

/-- The fields of the copies are the copies of the fields. -/
theorem fields_copies (names : List String) (bs : List Block) :
    (copies names bs).flatMap Block.fields =
      names.flatMap fun n => (bs.flatMap Block.fields).map fun f => f.withSuffix ("_" ++ n) := by
  have hcopy : ∀ (n : String) (b : Block),
      (b.withSuffix ("_" ++ n)).fields = b.fields.map fun f => f.withSuffix ("_" ++ n) := by
    intro n b
    rw [Block.withSuffix, if_neg (suffix_ne_empty n)]
  rw [copies, List.flatMap_assoc]
  simp only [List.flatMap_map, List.map_flatMap, hcopy]

/-- Ids are one under two suffixes when they are one and the suffixes are, or when one id ends in
what the name of the other's instance begins with. -/
theorem withSuffix_eq_iff {i j n m : String} :
    i ++ ("_" ++ n) = j ++ ("_" ++ m) ↔
      (i = j ∧ n = m)
        ∨ (∃ x, j = i ++ "_" ++ x ∧ n = x ++ "_" ++ m)
        ∨ ∃ x, i = j ++ "_" ++ x ∧ m = x ++ "_" ++ n := by
  -- what is before the second cut, without what is before the first, begins with an underscore
  have key : ∀ {i j n m : String} {rest : List Char}, j.toList = i.toList ++ rest →
      '_' :: n.toList = rest ++ '_' :: m.toList →
      (i = j ∧ n = m) ∨ ∃ x, j = i ++ "_" ++ x ∧ n = x ++ "_" ++ m := by
    intro i j n m rest hj hn
    cases rest with
    | nil =>
        refine .inl ⟨String.toList_inj.mp (by simpa using hj.symm), String.toList_inj.mp ?_⟩
        exact (List.cons.inj hn).2
    | cons c rest =>
        obtain ⟨rfl, hn⟩ := List.cons.inj hn
        refine .inr ⟨String.ofList rest, String.toList_inj.mp ?_, String.toList_inj.mp ?_⟩
        · simpa using hj
        · simpa using hn
  constructor
  · intro h
    have hlist : i.toList ++ '_' :: n.toList = j.toList ++ '_' :: m.toList := by
      simpa using congrArg String.toList h
    rcases List.append_eq_append_iff.mp hlist with ⟨rest, hj, hn⟩ | ⟨rest, hi, hm⟩
    · exact (key hj hn).imp_right .inl
    · rcases key hi hm with ⟨rfl, rfl⟩ | hx
      · exact .inl ⟨rfl, rfl⟩
      · exact .inr (.inr hx)
  · rintro (⟨rfl, rfl⟩ | ⟨x, rfl, rfl⟩ | ⟨x, rfl, rfl⟩)
    · rfl
    · simp only [String.append_assoc]
    · simp only [String.append_assoc]

/-- A name with something in front and an underscore is another name. -/
theorem longer_ne (x n : String) : x ++ "_" ++ n ≠ n := by
  intro h
  have hlength := congrArg String.length h
  rw [String.length_append, String.length_append] at hlength
  have : "_".length = 1 := rfl
  omega

/-- Distinct ids stay distinct under distinct names, unless they can be confused. -/
theorem nodup_suffixed_iff {ids names : List String} (hids : ids.Nodup) (hnames : names.Nodup) :
    (names.flatMap fun n => ids.map fun i => i ++ ("_" ++ n)).Nodup ↔ ¬Confusable ids names := by
  rw [List.nodup_flatMap]
  constructor
  · rintro ⟨-, hapart⟩ ⟨i, hi, n, hn, x, hix, hxn⟩
    have : Std.Symm (Function.onFun List.Disjoint
        fun n => ids.map fun i => i ++ ("_" ++ n)) := ⟨fun _ _ => List.disjoint_symm⟩
    have hdisjoint := hapart.forall hxn hn (longer_ne x n)
    refine hdisjoint (List.mem_map_of_mem hi) ?_
    rw [withSuffix_eq_iff.mpr (.inr (.inl ⟨x, rfl, rfl⟩))]
    exact List.mem_map_of_mem hix
  · intro hclear
    refine ⟨fun n _ => hids.map fun i j h => ?_, hnames.imp_of_mem fun {n m} hn hm hne => ?_⟩
    · rcases withSuffix_eq_iff.mp h with ⟨hij, -⟩ | ⟨x, -, hx⟩ | ⟨x, -, hx⟩
      · exact hij
      all_goals exact absurd hx.symm (longer_ne x n)
    · intro k hk hk'
      obtain ⟨i, hi, rfl⟩ := List.mem_map.mp hk
      obtain ⟨j, hj, heq⟩ := List.mem_map.mp hk'
      rcases withSuffix_eq_iff.mp heq with ⟨-, hmn⟩ | ⟨x, rfl, rfl⟩ | ⟨x, rfl, rfl⟩
      · exact hne hmn.symm
      · exact hclear ⟨j, hj, n, hn, x, hi, hm⟩
      · exact hclear ⟨i, hi, m, hm, x, hj, hn⟩

/--
**Instances are apart unless their ids can be confused.**

A sub-form that leads nowhere has distinct field ids, and a form does nothing but use it, under
distinct names of instances. If the form is resolved, its fields are the copies of the fields of the
sub-form, instance by instance, and their ids are distinct exactly when no id of a field and name of
an instance are continued by the same text.
-/
theorem instances_apart {σ : Type} {p : Provider σ} {limit : Int} {s t u : σ} {id : String}
    {f : SubForm} {names : List String} {d r : Form}
    (hlook : p.lookup id s = (.ok (some f), t)) (hleaf : ∀ b ∈ f.blocks, b.isUnresolved = false)
    (hfields : ((f.blocks.flatMap Block.fields).map Field.id).Nodup)
    (huses : UsesOnly id names d.blocks) (hnames : names.Nodup)
    (h : d.resolveFrom p limit s = (.ok r, u)) :
    r.fields =
        names.flatMap (fun n =>
          (f.blocks.flatMap Block.fields).map fun g => g.withSuffix ("_" ++ n))
      ∧ ((r.fields.map Field.id).Nodup
        ↔ ¬Confusable ((f.blocks.flatMap Block.fields).map Field.id) names) := by
  have hr : r.fields = names.flatMap fun n =>
      (f.blocks.flatMap Block.fields).map fun g => g.withSuffix ("_" ++ n) := by
    rw [Form.fields, resolveFrom_uses hlook hleaf huses h, fields_copies]
  refine ⟨hr, ?_⟩
  rw [← nodup_suffixed_iff hfields hnames, hr]
  simp only [List.map_flatMap, List.map_map]
  rfl

/-! ## Two contacts -/

/-- A contact has a phone, and one at home. -/
def contactBlock : Block := fieldBlock "contact" [textField "phone", textField "phone_home"]

def contactCatalog : Catalog := [("contact", ⟨"contact", "Contact", "1.0", [contactBlock], none⟩)]

/-- A form with two contacts and nothing else. -/
def contactsForm (first second : String) : Form :=
  ⟨none, none, "1.0", [useBlock first "contact" first, useBlock second "contact" second], none⟩

/-- The form with its contacts in their places. -/
def resolvedContacts (first second : String) : Form :=
  ⟨none, none, "1.0", copies [first, second] [contactBlock], none⟩

/-- Contacts are found, whatever they are called, if their blocks are told apart. -/
theorem resolveFrom_contacts {first second : String} (h1 : first ≠ "") (h2 : second ≠ "")
    (hids : firstRepeated? [] ((resolvedContacts first second).blocks.map Block.id) = none) :
    (contactsForm first second).resolveFrom (.ofCatalog contactCatalog : Provider Unit) 50 () =
      (.ok (resolvedContacts first second), ()) := by
  have hcol : collectSubForms (.ofCatalog contactCatalog : Provider Unit)
      (contactsForm first second).blocks () = (.ok contactCatalog, ()) := by rfl
  have huse : ∀ (n : String) (rest : List SpliceTask), n ≠ "" →
      Splice.run contactCatalog 50 [] (.enter (useBlock n "contact" n) "" :: rest) =
        (Splice.run contactCatalog 50 [] rest).map (contactBlock.withSuffix ("_" ++ n) :: ·) := by
    intro n rest hn
    have hsuffix : (useBlock n "contact" n).instanceSuffix ++ "" = "_" ++ n := by
      have hname : nonEmpty? (useBlock n "contact" n).subFormInstanceId = some n :=
        Option.filter_eq_some_iff.mpr ⟨rfl, by simpa using hn⟩
      rw [Block.instanceSuffix, hname, String.append_empty]
    rw [run_splice rfl rfl (by decide) rfl, hsuffix]
    show Splice.run _ _ _ (.enter contactBlock _ :: .leave :: rest) = _
    rw [run_keep rfl, run_leave]
    rfl
  have hsplice : spliceSubForms contactCatalog 50 (contactsForm first second).blocks =
      .ok (resolvedContacts first second).blocks := by
    refine spliceSubForms_eq_ok ?_ hids
    show Splice.run _ _ _ [.enter _ _, .enter _ _] = _
    rw [huse first _ h1, huse second _ h2, Splice.run]
    rfl
  have hsub : resolveSubForms (.ofCatalog contactCatalog : Provider Unit) 50
      (contactsForm first second).blocks () = (.ok (resolvedContacts first second).blocks, ()) := by
    rw [← hsplice]
    exact resolveSubForms_eq hcol 50
  refine resolveFrom_eq_ok ?_ hsub (resolveRepeatables_self 50 ?_)
  · intro b hb
    rcases List.mem_pair.mp hb with rfl | rfl <;> rfl
  · intro b hb
    rcases List.mem_pair.mp hb with rfl | rfl <;> exact withSuffix_isUnresolved rfl _

theorem usesOnly_contacts {first second : String} (h1 : first ≠ "") (h2 : second ≠ "") :
    UsesOnly "contact" [first, second] (contactsForm first second).blocks :=
  .cons ⟨rfl, Option.filter_eq_some_iff.mpr ⟨rfl, by simpa using h1⟩⟩
    (.cons ⟨rfl, Option.filter_eq_some_iff.mpr ⟨rfl, by simpa using h2⟩⟩ .nil)

/-- An owner and a tenant keep their phones apart. -/
theorem instances_apart_tenant :
    (contactsForm "owner" "tenant").resolveFrom (.ofCatalog contactCatalog : Provider Unit) 50 () =
        (.ok (resolvedContacts "owner" "tenant"), ())
      ∧ UsesOnly "contact" ["owner", "tenant"] (contactsForm "owner" "tenant").blocks
      ∧ ((resolvedContacts "owner" "tenant").fields.map Field.id).Nodup
      ∧ ¬Confusable ["phone", "phone_home"] ["owner", "tenant"] := by
  have hres : (contactsForm "owner" "tenant").resolveFrom
      (.ofCatalog contactCatalog : Provider Unit) 50 () =
        (.ok (resolvedContacts "owner" "tenant"), ()) :=
    resolveFrom_contacts (by decide) (by decide) (by decide)
  have huses : UsesOnly "contact" ["owner", "tenant"] (contactsForm "owner" "tenant").blocks :=
    usesOnly_contacts (by decide) (by decide)
  obtain ⟨-, hiff⟩ := instances_apart rfl (by decide) (by decide) huses (by decide) hres
  have hnd : ((resolvedContacts "owner" "tenant").fields.map Field.id).Nodup := by decide
  exact ⟨hres, huses, hnd, hiff.mp hnd⟩

/-- The phone of a home owner is the phone at home of an owner. -/
theorem instances_confused_homeOwner :
    UsesOnly "contact" ["home_owner", "owner"] (contactsForm "home_owner" "owner").blocks
      ∧ (contactsForm "home_owner" "owner").resolveFrom
          (.ofCatalog contactCatalog : Provider Unit) 50 () =
        (.ok (resolvedContacts "home_owner" "owner"), ())
      ∧ ¬((resolvedContacts "home_owner" "owner").fields.map Field.id).Nodup :=
  ⟨usesOnly_contacts (by decide) (by decide),
    resolveFrom_contacts (by decide) (by decide) (by decide), by decide⟩

end Formwork.Proofs
