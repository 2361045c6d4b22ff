import Formwork.Reference.Error
import Formwork.Reference.Suffix

/-!
# Collecting sub-forms

Before anything is spliced, every sub-form that the form leads to is asked for: breadth first, in
document order, each id once. The first id that the provider does not know ends the resolution.

A provider may keep a state, such as the answers that are left of a remote exchange. It also says
how many sub-forms it can still supply at most, which bounds the collection whatever the documents
refer to.
-/

namespace Formwork

/-- Sub-forms by their ids. -/
abbrev Catalog := Ordered SubForm

/-- Ids in order. -/
def sortIds (ids : List String) : List String := ids.mergeSort fun a b => a ≤ b

/-- A source of sub-forms. -/
structure Provider (σ : Type) where
  /-- The sub-form with an id, or none when the provider does not know it. -/
  lookup : String → σ → Except ReferenceError (Option SubForm) × σ
  /-- The ids that the provider reports to know. -/
  available : List String
  /-- How many different sub-forms the provider can still supply at most. -/
  supply : σ → Nat

namespace Provider

variable {σ : Type}

/-- The provider over a catalog. -/
def ofCatalog (catalog : Catalog) : Provider σ where
  lookup id s := (.ok (Ordered.get? catalog id), s)
  available := sortIds (Ordered.keys catalog)
  supply _ := catalog.length

/-- The provider that knows nothing. -/
def nothing : Provider σ := ⟨fun _ s => (.ok none, s), [], fun _ => 0⟩

/-- Asks a second provider for what the first one does not know. The two together report no ids. -/
def orElse (p q : Provider σ) : Provider σ where
  lookup id s :=
    match p.lookup id s with
    | (.ok none, s) => q.lookup id s
    | found => found
  available := []
  supply s := p.supply s + q.supply s

/-- Asks providers in order. -/
def chain (ps : List (Provider σ)) : Provider σ := ps.foldr orElse nothing

end Provider

/-- A block that stands for both a sub-form and a template is refused. -/
def checkConflicts (blocks : List Block) : Except ReferenceError Unit :=
  match blocks.find? Block.isConflicting with
  | some b => .error (.conflicting b.id)
  | none => .ok ()

/-- The sub-forms that blocks stand for, in order. -/
def expansionIds (blocks : List Block) : List String := blocks.filterMap Block.expansion?

/-- What has been collected, and what is still to be asked for. -/
structure Collection where
  queue : List String
  fetched : Catalog

namespace Collection

/-- The queue without what has been fetched already. -/
def pending (c : Collection) : List String :=
  c.queue.dropWhile fun id => Ordered.has c.fetched id

/-- Takes the answer for an id. The sub-forms that it stands for are asked for last. -/
def add (c : Collection) (id : String) (rest : List String) (s : SubForm) : Collection :=
  ⟨rest ++ expansionIds s.blocks, Ordered.insert c.fetched id s⟩

/-- Asks for what is pending, at most `fuel` times. -/
def run {σ : Type} (p : Provider σ) : Nat → Collection → σ → Except ReferenceError Catalog × σ
  | 0, c, s => (.ok c.fetched, s)
  | fuel + 1, c, s =>
    match c.pending with
    | [] => (.ok c.fetched, s)
    | id :: rest =>
      match p.lookup id s with
      | (.error e, s) => (.error e, s)
      -- What is available is told with the id that is not.
      | (.ok none, s) => (.error (.missingSubForm id p.available), s)
      | (.ok (some f), s) =>
        match checkConflicts f.blocks with
        | .error e => (.error e, s)
        | .ok () => run p fuel (c.add id rest f) s

end Collection

/-- Every sub-form that the blocks lead to. -/
def collectSubForms {σ : Type} (p : Provider σ) (blocks : List Block) (s : σ) :
    Except ReferenceError Catalog × σ :=
  Collection.run p (p.supply s + 1) ⟨expansionIds blocks, []⟩ s

end Formwork
