import Formwork.Context.Scope
import Formwork.Schema.FieldSchema
import Formwork.Values.ErrorTree

/-!
# Group schemas

The value of a group is a list of instances, which are objects. A member of an instance is read from
the key that is the member's plain id or, when there is none, from the key that names its place in
the group; a member that is missing is null. Other keys do not matter.

The number of instances may be bounded. A list that is too long is only told so; one that is too
short is told so when nothing is wrong with its instances.
-/

namespace Formwork

/-- A member of a group: its plain id and its schema. -/
structure Member where
  key : String
  schema : FieldSchema

/-- The schema of a group. -/
structure GroupSchema where
  id : String
  blockId : String
  least : Option Nat
  most : Option Nat
  members : List Member

/-- What is wrong with a part of a group, and the path to it. -/
structure GroupFault where
  path : List String
  rejection : Rejection
  deriving DecidableEq

namespace GroupSchema

/-- A name in the form of an identifier, with a capital letter in front. -/
def capitalized : List Char → List Char
  | [] => []
  | c :: cs => Text.upperChar c ++ cs

/-- What an instance of a group is called. -/
def instanceName (id : String) : String :=
  let cleaned := id.toList.map fun c => if Text.isWordChar c then c else '_'
  let name := Text.trimBy (· == '_') cleaned
  String.ofList (capitalized (if name.isEmpty then "Group".toList else name)) ++ "Instance"

/-- The key that names a place in a group. -/
def placeKey (place : Nat) : String := "field_" ++ toString place

/-- The key and value of a member in an instance. -/
def read (place : Nat) (key : String) (values : Members) : String × Value :=
  match Ordered.get? values key with
  | some v => (key, v)
  | none => (placeKey place, (Ordered.get? values (placeKey place)).getD .null)

/-- The plain id that a reported key stands for. -/
def reportedKey (members : List Member) (place : Nat) (key reported : String) : String :=
  if members.any (fun m => m.key == reported) then reported
  else if reported == placeKey place then key
  else reported

/-- What is wrong with the members of an instance, from a place in the group on. -/
def memberFaults (all : List Member) (values : Members) :
    (place : Nat) → List Member → Except RangeFault (List GroupFault)
  | _, [] => .ok []
  | place, m :: rest => do
    let (reported, v) := read place m.key values
    match ← m.schema.validate v with
    | .ok _ => memberFaults all values (place + 1) rest
    | .error r => do
      let faults ← memberFaults all values (place + 1) rest
      .ok (⟨[reportedKey all place m.key reported], r⟩ :: faults)

/-- What is wrong with an instance. -/
def instanceFaults (s : GroupSchema) (v : Value) : Except RangeFault (List GroupFault) :=
  match v with
  | .object ms => memberFaults s.members ms 0 s.members
  | _ => .ok [⟨[], ⟨"model_type",
      "Input should be a valid dictionary or instance of " ++ instanceName s.id⟩⟩]

/-- What is wrong with instances, from a position in the list on. -/
def itemFaults (s : GroupSchema) : (index : Nat) → List Value → Except RangeFault (List GroupFault)
  | _, [] => .ok []
  | index, v :: rest => do
    let faults ← s.instanceFaults v
    let more ← itemFaults s (index + 1) rest
    .ok (faults.map (fun f => { f with path := toString index :: f.path }) ++ more)

/-- The words for a number of items. -/
def itemsText (n : Nat) : String := toString n ++ " item" ++ (if n == 1 then "" else "s")

/-- The message for a length that is out of bounds. -/
def lengthMessage (bound : String) (limit size : Nat) : String :=
  "List should have " ++ bound ++ " " ++ itemsText limit ++ " after validation, not " ++
    toString size

/-- What is wrong with a list that is too long. -/
def tooLong? (s : GroupSchema) (size : Nat) : Option Rejection :=
  match s.most with
  | some most =>
    if most < size then some ⟨"too_long", lengthMessage "at most" most size⟩ else none
  | none => none

/-- What is wrong with a list that is too short. -/
def tooShort? (s : GroupSchema) (size : Nat) : Option Rejection :=
  match s.least with
  | some least =>
    if size < least then some ⟨"too_short", lengthMessage "at least" least size⟩ else none
  | none => none

/-- The instances that are looked at: up to the first that is one too many. -/
def examined (s : GroupSchema) (items : List Value) : List Value :=
  match s.most with
  | some most => items.take (most + 1)
  | none => items

/-- What is wrong with the value of a group. -/
def faults (s : GroupSchema) (v : Value) : Except RangeFault (List GroupFault) :=
  match v with
  | .list items => do
    -- Of a list that is too long nothing else is told, whatever its instances are.
    let found ← s.itemFaults 0 (s.examined items)
    match s.tooLong? items.length with
    | some r => .ok [⟨[], r⟩]
    | none =>
      if found.isEmpty then
        match s.tooShort? items.length with
        | some r => .ok [⟨[], r⟩]
        | none => .ok []
      else .ok found
  | _ => .ok [⟨[], ⟨"list_type", "Input should be a valid list"⟩⟩]

/-- The issues of the value of a group; a missing one is an empty list. -/
def issues (s : GroupSchema) (v : Value) : Except RangeFault (List Issue) :=
  (s.faults (match v with | .null => .list [] | v => v)).map fun faults =>
    faults.map fun f => ⟨".".intercalate (s.id :: f.path), f.rejection.message, f.rejection.code⟩

/-- A summary of the schema. -/
def describe (s : GroupSchema) : Value :=
  let fields := Ordered.ofList (s.members.map fun m => (m.key, m.schema.describe))
  let count (key : String) (n : Option Nat) : Members := (n.map fun n => (key, .int n)).toList
  .object ([("type", .str "array"), ("block", .str s.blockId), ("fields", .object fields)] ++
    count "minItems" s.least ++ count "maxItems" s.most)

end GroupSchema

/-- The least number that is past the length of every list. -/
def GroupSchema.countLimit : Nat := Nat.pow 2 64

/-- Whether the bounds of a group can be compared with lengths. -/
def GroupSchema.isBounded (s : GroupSchema) : Bool :=
  (s.least.toList ++ s.most.toList).all (· < GroupSchema.countLimit)

/-- Compiles a member of a group. -/
def compileMember (validators : Ordered CustomValidator) (group : String) (f : Field) :
    Except SchemaError Member :=
  let key := plainId group f.id
  (f.compile validators).map fun s => ⟨key, { s with id := key }⟩

/-- Compiles the schema of a group. A least number of zero is no bound. -/
def compileGroup (validators : Ordered CustomValidator) (owner : Block) (group : String)
    (members : List Field) : Except SchemaError GroupSchema := do
  let members ← members.mapM (compileMember validators group)
  let s : GroupSchema :=
    ⟨group, owner.id, owner.minInstances.filter (· != 0), owner.maxInstances, members⟩
  if s.isBounded then .ok s else .error (.outOfRange .countTooLarge)

end Formwork
