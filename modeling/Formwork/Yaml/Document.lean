import Formwork.Yaml.Node
import Formwork.Yaml.Scalar

/-!
# YAML documents

The tree of a document becomes data in two stages. First every node gets what its tag, or else its
text, asks for; the entries of the mappings under a merge key come before the entries beside it,
which override them (`Plan`). Then data are made level by level: a scalar gets its value where it is
met, and a collection, which is begun there, its parts when all that was met before it has its own.

Of two entries with one key the later counts, in the place of the earlier. Tags outside of the
standard ones are refused.
-/

namespace Formwork.Yaml

/-- Whether two keys are one. -/
def sameKey : Datum → Datum → Bool
  | .null, .null => true
  | .text a, .text b => a == b
  | a, b =>
    match number? a, number? b with
    | some v, some w => v == w
    | _, _ => false
where
  number? : Datum → Option Dyadic
    | .bool b => some (if b then 1 else 0)
    | .int n => some (Dyadic.ofInt n)
    | .real x => x.value?
    | _ => none

/-- Writes an entry of a mapping. -/
def insertEntry (entries : List (Datum × Datum)) (e : Datum × Datum) : List (Datum × Datum) :=
  match entries with
  | [] => [e]
  | (k, v) :: rest => if sameKey k e.1 then (k, e.2) :: rest else (k, v) :: insertEntry rest e

/-- What a node is made into. -/
inductive NodeKind where
  | scalar (kind : ScalarKind)
  | sequence
  /-- A sequence of mappings with one entry each. -/
  | pairs
  | mapping
  | set
  deriving DecidableEq

/-- The kind that a tag asks for. -/
def NodeKind.ofTag? (tag : String) : Option NodeKind :=
  match ScalarKind.ofTag? tag with
  | some kind => some (.scalar kind)
  | none =>
    [("tag:yaml.org,2002:seq", .sequence), ("tag:yaml.org,2002:omap", .pairs),
      ("tag:yaml.org,2002:pairs", .pairs), ("tag:yaml.org,2002:map", .mapping),
      ("tag:yaml.org,2002:set", .set)].lookup tag

/-- The kind of a node. -/
def Node.kind? : Node → Option NodeKind
  | .scalar none plain s => some (.scalar (if plain then .ofText s else .text))
  | .sequence none _ => some .sequence
  | .mapping none _ => some .mapping
  | .scalar (some tag) _ _ | .sequence (some tag) _ | .mapping (some tag) _ => NodeKind.ofTag? tag

/-- Whether a node is a key that means something else than itself. -/
def Node.asksFor (kind : ScalarKind) (n : Node) : Bool := n.kind? == some (.scalar kind)

mutual

/-- The text of a node that is made into a scalar: of a mapping, its default value. -/
def Node.text? : Node → Option String
  | .scalar _ _ s => some s
  | .sequence _ _ => none
  | .mapping _ entries => defaultText? entries

def defaultText? : List (Node × Node) → Option String
  | [] => none
  | (k, v) :: rest => if k.asksFor .defaultKey then v.text? else defaultText? rest

end

/-! ## Plans -/

/-- The data that are to be made of a node. -/
inductive Plan where
  | scalar (kind : ScalarKind) (text : String)
  | sequence (items : List Plan)
  | pairs (entries : List (Plan × Plan))
  | mapping (entries : List (Plan × Plan))
  | set (entries : List (Plan × Plan))
  /-- No data can be made. -/
  | refused (e : YamlError)
  /-- A collection that is begun, but has no parts that could be made. -/
  | broken

namespace Plan

/-- What is made of a node that is to be a scalar. -/
def ofScalar (kind : ScalarKind) : Node → Plan
  | .scalar _ _ s => .scalar kind s
  | n =>
    match n.text? with
    | none => .refused .malformed
    -- The parts of a timestamp are looked for in the node itself.
    | some s => if kind = .timestamp then .refused (.scalar .defaultTimestamp) else .scalar kind s

/-- What is made of something else than a scalar. -/
def ofKind (n : Node) (collection : NodeKind → Plan) : Plan :=
  match n.kind? with
  | none => .refused .malformed
  | some (.scalar kind) => ofScalar kind n
  | some kind => collection kind

end Plan

mutual

/-- What is made of a node. -/
def Node.plan : Node → Plan
  | .scalar tag plain s => .ofKind (.scalar tag plain s) fun _ => .broken
  | .sequence tag items =>
    .ofKind (.sequence tag items) fun
      | .sequence => .sequence (planItems items)
      | .pairs => .pairs (planPairs items)
      | _ => .broken
  | .mapping tag entries =>
    let own := planOwn entries
    let merged := planMerged entries
    .ofKind (.mapping tag entries) fun
      | .mapping => (merged.map fun merged => Plan.mapping (merged ++ own)).getD .broken
      | .set => (merged.map fun merged => Plan.set (merged ++ own)).getD .broken
      | _ => .broken

def planItems : List Node → List Plan
  | [] => []
  | n :: ns => n.plan :: planItems ns

/-- What is made of the items of a sequence of pairs. -/
def planPairs : List Node → List (Plan × Plan)
  | [] => []
  | .mapping _ [(k, v)] :: ns => (k.plan, v.plan) :: planPairs ns
  | _ :: _ => [(.refused .malformed, .refused .malformed)]

/-- What is made of the entries of a mapping that are its own. -/
def planOwn : List (Node × Node) → List (Plan × Plan)
  | [] => []
  | (k, v) :: rest =>
    if k.asksFor .merge then planOwn rest
    else (if k.asksFor .defaultKey then .ofScalar .text k else k.plan, v.plan) :: planOwn rest

/-- What is made of the entries that the merge keys of a mapping bring in. -/
def planMerged : List (Node × Node) → Option (List (Plan × Plan))
  | [] => some []
  | (k, v) :: rest =>
    if k.asksFor .merge then do
      let entries ← v.planBrought
      let more ← planMerged rest
      some (entries ++ more)
    else planMerged rest

/-- What is made of the entries that a node under a merge key brings in. Of several mappings the
first counts most. -/
def Node.planBrought : Node → Option (List (Plan × Plan))
  | .scalar _ _ _ => none
  | .sequence _ items => planBroughtByEach items
  | .mapping _ entries => (planMerged entries).map (· ++ planOwn entries)

def planBroughtByEach : List Node → Option (List (Plan × Plan))
  | [] => some []
  | .mapping _ entries :: rest => do
    let merged ← planMerged entries
    let more ← planBroughtByEach rest
    some (more ++ (merged ++ planOwn entries))
  | _ :: _ => none

end

namespace Plan

/-- Begins the data of a plan, which are all of them for a scalar. -/
def begin : Plan → Except YamlError Unit
  | .scalar kind s => (kind.build s).map fun _ => ()
  | .refused e => .error e
  | _ => .ok ()

/-- Whether the data can be a key. -/
def isKey : Plan → Bool
  | .sequence _ | .pairs _ | .mapping _ | .set _ | .broken => false
  | .scalar _ _ | .refused _ => true

/-- The parts of an entry. What cannot be a key is found out when it is begun. -/
def entryParts (e : Plan × Plan) : List Plan :=
  if e.1.isKey then [e.1, e.2] else [e.1, .refused .malformed]

/-- The parts of a plan, in the order in which they are begun. -/
def parts : Plan → List Plan
  | .sequence items => items
  | .pairs entries => entries.flatMap fun (k, v) => [k, v]
  | .mapping entries | .set entries => entries.flatMap entryParts
  | .broken => [.refused .malformed]
  | .scalar _ _ | .refused _ => []

/-- The parts of the parts, and so on, at a depth. -/
def level : (depth : Nat) → Plan → List Plan
  | 0, p => [p]
  | depth + 1, p => p.parts.flatMap (level depth)

mutual

/-- The number of levels. -/
def height : Plan → Nat
  | .sequence items => heightOfItems items + 1
  | .pairs entries | .mapping entries | .set entries => heightOfEntries entries + 1
  | .broken => 2
  | .scalar _ _ | .refused _ => 1

def heightOfItems : List Plan → Nat
  | [] => 0
  | p :: ps => max p.height (heightOfItems ps)

def heightOfEntries : List (Plan × Plan) → Nat
  | [] => 0
  | (k, v) :: rest => max (max k.height v.height) (heightOfEntries rest)

end

/-- Everything that is begun, level by level. -/
def steps (p : Plan) : List Plan := (List.range p.height).flatMap fun depth => p.level depth

mutual

/-- The data of a plan whose steps can all be begun. -/
def data : Plan → Datum
  | .scalar kind s => (kind.build s).toOption.getD .null
  | .sequence items => .sequence (dataOfItems items)
  | .pairs entries => .sequence (entries.map fun _ => .foreign "tuple")
  | .mapping entries => .mapping ((dataOfEntries entries).foldl insertEntry [])
  | .set _ => .foreign "set"
  | .refused _ | .broken => .null

def dataOfItems : List Plan → List Datum
  | [] => []
  | p :: ps => p.data :: dataOfItems ps

def dataOfEntries : List (Plan × Plan) → List (Datum × Datum)
  | [] => []
  | (k, v) :: rest => (k.data, v.data) :: dataOfEntries rest

end

/-- Makes the data of a plan. -/
def build (p : Plan) : Except YamlError Datum := do
  forM p.steps begin
  .ok p.data

end Plan

/-- Why the tokens of a text make no tree. -/
def TokenRun.error (run : TokenRun) : NodeFault → YamlError
  | .malformed => .malformed
  | .exhausted => run.fault?.elim .malformed .scalar

/-- Reads a text as one document; an empty text is null. -/
def read (s : String) : Except YamlError Datum := do
  let run ← tokenize s
  match ← (Node.ofTokens run.tokens).mapError run.error with
  | none => .ok .null
  | some n => n.plan.build

end Formwork.Yaml
