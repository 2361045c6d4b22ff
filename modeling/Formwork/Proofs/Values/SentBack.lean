import Formwork.Proofs.Reference.Validity
import Formwork.Proofs.Sample
import Formwork.Proofs.Values.Defaults
import Formwork.Tool.Target

/-!
# A resolved form that is sent back

A resolved form can be given out as a document and come back with another call. It is
valid, since resolution keeps forms valid, so it is read back as what the wire form
carries of it; and that has nothing left to resolve. Its initial values are those of
before, unless a field declares null where its kind starts with something else, or a group
starts with an instance only because of nulls.
-/

namespace Formwork.Proofs

open Formwork

/-- The fields of the rendered part of a form. -/
def renderedFields (f : Form) : List Field := f.renderBlocks.flatMap Block.fields

theorem renderedFields_carried (f : Form) :
    renderedFields f.carried = (renderedFields f).map Field.carried := by
  have hrender : f.carried.renderBlocks = f.renderBlocks.map Block.carried := List.filter_map
  unfold renderedFields
  rw [hrender, List.flatMap_map, List.map_flatMap]
  rfl

theorem initialValues_carried_form (f : Form) (c : Members) :
    f.carried.initialValues c = initialValues ((renderedFields f).map Field.carried) c := by
  rw [← renderedFields_carried]
  rfl

/-- What the wire form carries of a resolved form is resolved. -/
theorem resolveFrom_carried {f : Form}
    (h : ∀ b ∈ f.blocks, b.isConflicting = false ∧ b.isUnresolved = false) {σ : Type}
    (p : Provider σ) (limit : Int) (s : σ) : f.carried.resolveFrom p limit s = (.ok f.carried, s) :=
  resolveFrom_self (List.forall_mem_map.mpr fun b hb => (h b hb).1)
    (List.forall_mem_map.mpr fun b hb => (h b hb).2) p limit s

/-- A valid form that comes with a call is what its wire form carries. -/
theorem form?_write {f : Form} (hf : f.Valid) (forms : Registry Form) :
    Target.form? ⟨none, some f.write⟩ forms = .ok f.carried := by
  have hread : formKind.read (Datum.ofValue f.write) = .ok f.carried := (readsBack_form hf).reads
  have hload (label source : Option String) :
      formKind.ofDatum label source (Datum.ofValue f.write) = .ok f.carried source := by
    rw [DocumentKind.ofDatum, hread]
  have hid : nonEmpty? none = none := rfl
  simp only [Target.form?, hid, hload, LoadResult.ok]

/--
**A resolved form that is sent back has its initial values again, but for declared nulls.**

Let a form that was read be resolved with sub-forms that were read. What comes back of the result is
what its wire form carries, and a call that gets it works on just that. In every context it starts
with the same values when the null defaults agree; and, where the keys of the values are distinct,
only then.
-/
theorem initialValues_sent_back {doc : Datum} {d r : Form} {σ : Type} {p : Provider σ}
    {limit : Int} {s t : σ} (hread : Form.read doc = .ok d) (hp : GivesRead p)
    (hr : d.resolveFrom p limit s = (.ok r, t)) :
    Form.read (Datum.ofValue r.write) = .ok r.carried
      ∧ (∀ (ρ : Type) (a : App ρ) (session : Session),
          a.prepare ⟨none, some r.write⟩ none session = (.ok r.carried, session))
      ∧ (∀ c, DefaultsAgree (renderedFields r) → r.carried.initialValues c = r.initialValues c)
      ∧ ∀ c values, DistinctKeys (renderedFields r) → r.initialValues c = .ok values →
          (r.carried.initialValues c = .ok values ↔ DefaultsAgree (renderedFields r)) := by
  have hd : d.Valid := yields_form doc d hread
  have hvalid := resolveFrom_valid hp hd hr
  have hresolved := resolveFrom_resolved hd.blocks.distinct hr
  refine ⟨(readsBack_form hvalid).reads, fun ρ a session => ?_, fun c hagree => ?_,
    fun c values hnd hvalues => ?_⟩
  · rw [App.prepare, form?_write hvalid]
    dsimp only
    rw [resolveFrom_carried hresolved]
    rfl
  · rw [initialValues_carried_form]
    exact initialValues_carried hagree c
  · rw [initialValues_carried_form]
    exact initialValues_carried_iff hnd hvalues

/-! ## A nickname that starts with null -/

/-- A form whose only field declares null as its default. -/
def nicknameForm : Form :=
  ⟨none, none, "1.0",
    [fieldBlock "main" [{ textField "nickname" with default := .null }]], none⟩

/-- The document that its blocks come from. -/
def nicknameBlocks : Datum :=
  .sequence [.mapping [(.text "id", .text "main"),
    (.text "fields", .sequence [.mapping [(.text "id", .text "nickname"),
      (.text "type", .text "text"), (.text "defaultValue", .null)]])]]

/-- The document that the form comes from. -/
def nicknameDocument : Datum := .mapping [(.text "blocks", nicknameBlocks)]

/-- A document of blocks alone is read as a form of these blocks. -/
theorem read_blocks {d : Datum} {bs : List Block} (h : readBlocks d = .ok bs) :
    Form.read (.mapping [(.text "blocks", d)]) = .ok ⟨none, none, "1.0", bs, none⟩ := by
  have hfield : RecordReader.withDefault ["blocks"] readBlocks [] [(.text "blocks", d)] =
      (["blocks"], .ok bs) := by
    show (["blocks"], (readBlocks d).within (.key "blocks")) = _
    rw [h]
    rfl
  unfold Form.read RecordReader.read RecordReader.field
  dsimp only
  rw [hfield]
  rfl

theorem read_nicknameDocument : Form.read nicknameDocument = .ok nicknameForm :=
  read_blocks (readBlocks_eq_ok (by rfl) (by decide))

theorem resolveFrom_nicknameForm :
    nicknameForm.resolveFrom (.nothing : Provider Unit) 50 () = (.ok nicknameForm, ()) :=
  resolveFrom_self (by decide) (by decide) _ _ _

theorem initialValues_nicknameForm :
    nicknameForm.initialValues [] = .ok [("nickname", .null)] := by rfl

/-- Sent back, the nickname does not start with null any more. -/
theorem initialValues_sent_back_nickname :
    Form.read nicknameDocument = .ok nicknameForm
      ∧ GivesRead (.nothing : Provider Unit)
      ∧ nicknameForm.resolveFrom (.nothing : Provider Unit) 50 () = (.ok nicknameForm, ())
      ∧ DistinctKeys (renderedFields nicknameForm)
      ∧ nicknameForm.initialValues [] = .ok [("nickname", .null)]
      ∧ Form.read (Datum.ofValue nicknameForm.write) = .ok nicknameForm.carried
      ∧ nicknameForm.carried.initialValues [] ≠ .ok [("nickname", .null)] := by
  have hgives : GivesRead (.nothing : Provider Unit) := givesRead_nothing
  have hnd : DistinctKeys (renderedFields nicknameForm) := ⟨by decide, by decide⟩
  obtain ⟨hback, -, -, hvalues⟩ :=
    initialValues_sent_back read_nicknameDocument hgives resolveFrom_nicknameForm
  refine ⟨read_nicknameDocument, hgives, resolveFrom_nicknameForm, hnd,
    initialValues_nicknameForm, hback, fun h => ?_⟩
  have hagree := (hvalues [] _ hnd initialValues_nicknameForm).mp h
  have hnull := hagree.own { textField "nickname" with default := .null }
    (List.mem_singleton_self _) rfl
  cases hnull

/-- The nickname starts with null as it was given, and with the empty text as it comes back. -/
theorem nickname_sent_back :
    Form.read nicknameDocument = .ok nicknameForm
      ∧ nicknameForm.resolveFrom (.nothing : Provider Unit) 50 () = (.ok nicknameForm, ())
      ∧ Form.read (Datum.ofValue nicknameForm.write) = .ok nicknameForm.carried
      ∧ nicknameForm.initialValues [] = .ok [("nickname", .null)]
      ∧ nicknameForm.carried.initialValues [] = .ok [("nickname", .str "")] :=
  ⟨read_nicknameDocument, resolveFrom_nicknameForm,
    (readsBack_form (yields_form _ _ read_nicknameDocument)).reads, initialValues_nicknameForm, rfl⟩

end Formwork.Proofs
