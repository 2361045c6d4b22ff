import Formwork.Ordered
import Formwork.Yaml.Token

/-!
# YAML nodes

The tokens of a document make one tree of scalars, sequences and mappings, each with the tag that
it was given. An alias stands for the node that was given the anchor before it; an anchor is given
once.

The tokens may end before the document does. Whether a reader has to know what is behind them is
told from what it asks for: it fails at the end of the tokens (`refusal`, `demand`), or before it.
-/

namespace Formwork.Yaml

/-- A node. A scalar is `plain` when its kind may be told from its text. -/
inductive Node where
  | scalar (tag : Option String) (plain : Bool) (text : String)
  | sequence (tag : Option String) (items : List Node)
  | mapping (tag : Option String) (entries : List (Node × Node))

instance : Inhabited Node := ⟨.scalar none true ""⟩

/-- The scalar that stands where nothing was written. -/
def Node.nothing : Node := .scalar none true ""

/-- What has been named so far: the nodes behind anchors, none while they are being read. -/
abbrev Anchors := Ordered (Option Node)

/-- The prefixes of tag handles. -/
abbrev Handles := List (String × String)

/-- The handles of a document without directives. -/
def defaultHandles : Handles := [("!", "!"), ("!!", "tag:yaml.org,2002:")]

/-- Why tokens make no tree: they are malformed, or too few to tell. -/
inductive NodeFault where
  | malformed
  | exhausted
  deriving DecidableEq

namespace Node

/-- Why a reader goes no further at these tokens. -/
def refusal : List Token → NodeFault
  | [] => .exhausted
  | _ => .malformed

/-- Asks for the next token. -/
def demand : List Token → Except NodeFault Unit
  | [] => .error .exhausted
  | _ => .ok ()

/-- What was read, with the anchors and the tokens after it. -/
abbrev Found (α : Type) := α × Anchors × List Token

/-- The properties of a node: an anchor and a tag, in either order. -/
structure Properties where
  anchor : Option String
  tag : Option Tag

def properties : List Token → Properties × List Token
  | .anchor a :: .tag t :: rest => (⟨some a, some t⟩, rest)
  | .anchor a :: rest => (⟨some a, none⟩, rest)
  | .tag t :: .anchor a :: rest => (⟨some a, some t⟩, rest)
  | .tag t :: rest => (⟨none, some t⟩, rest)
  | rest => (⟨none, none⟩, rest)

/-- The full tag. -/
def fullTag (handles : Handles) (t : Tag) : Except NodeFault String :=
  match t.handle with
  | none => .ok t.suffix
  | some h =>
    match handles.lookup h with
    | some start => .ok (start ++ t.suffix)
    | none => .error .malformed

/-- A tag that says nothing. -/
def meaningful (tag : Option String) : Option String := tag.filter (· != "!")

/-- The full tag of a node in front of its content. Behind a tag alone an anchor might follow, which
is asked for before the handle is looked up. -/
def tagOf (handles : Handles) (p : Properties) (content : List Token) :
    Except NodeFault (Option String) :=
  match p.tag with
  | none => .ok none
  | some t => do
    if p.anchor.isNone then demand content
    (fullTag handles t).map some

/-- Gives an anchor to the node that is about to be read. -/
def declare (anchors : Anchors) (anchor : Option String) : Except NodeFault Anchors :=
  match anchor with
  | none => .ok anchors
  | some a => if Ordered.has anchors a then .error .malformed else .ok (anchors ++ [(a, none)])

/-- Gives an anchor to a node. -/
def bind (anchors : Anchors) (anchor : Option String) (n : Node) : Anchors :=
  match anchor with
  | none => anchors
  | some a => Ordered.insert anchors a (some n)

mutual

/-- A node. Block collections are only read where `block` holds; a sequence whose dashes are not
indented only where `unindented` holds. -/
def read (handles : Handles) (block unindented : Bool) :
    (fuel : Nat) → Anchors → List Token → Except NodeFault (Found Node)
  | 0, _, _ => .error .malformed
  | fuel + 1, anchors, tokens =>
    match tokens with
    | .alias a :: rest =>
      match Ordered.get? anchors a with
      | some (some n) => .ok (n, anchors, rest)
      | _ => .error .malformed
    | _ => do
      let (p, rest) := properties tokens
      let tag ← tagOf handles p rest
      demand rest
      let anchors ← declare anchors p.anchor
      let (n, anchors, rest) ← content handles block unindented fuel tag p anchors rest
      .ok (n, bind anchors p.anchor n, rest)

/-- A node after its properties. -/
def content (handles : Handles) (block unindented : Bool) :
    (fuel : Nat) → (tag : Option String) → Properties → Anchors → List Token →
      Except NodeFault (Found Node)
  | 0, _, _, _, _ => .error .malformed
  | fuel + 1, tag, p, anchors, tokens =>
    match tokens with
    | .scalar text plain :: rest =>
      .ok (.scalar (meaningful tag) ((plain && tag.isNone) || tag == some "!") text, anchors, rest)
    | .flowSequenceStart :: rest => do
      let (items, anchors, rest) ← flowItems handles true fuel anchors rest
      .ok (.sequence (meaningful tag) items, anchors, rest)
    | .flowMappingStart :: rest => do
      let (entries, anchors, rest) ← flowEntries handles true fuel anchors rest
      .ok (.mapping (meaningful tag) entries, anchors, rest)
    | .blockSequenceStart :: rest =>
      if block then do
        let (items, anchors, rest) ← blockItems handles fuel anchors rest
        .ok (.sequence (meaningful tag) items, anchors, rest)
      else .error .malformed
    | .blockMappingStart :: rest =>
      if block then do
        let (entries, anchors, rest) ← blockEntries handles fuel anchors rest
        .ok (.mapping (meaningful tag) entries, anchors, rest)
      else .error .malformed
    | _ =>
      if unindented && tokens.head? == some .blockEntry then do
        let (items, anchors, rest) ← unindentedItems handles fuel anchors tokens
        .ok (.sequence (meaningful tag) items, anchors, rest)
      -- A node may have properties and nothing else.
      else if p.anchor.isSome || tag.isSome then
        .ok (.scalar (meaningful tag) (tag.isNone || tag == some "!") "", anchors, tokens)
      else .error .malformed

/-- A node, or nothing where one of the tokens `ends` stands. -/
def optional (handles : Handles) (block unindented : Bool) (ends : List Token) :
    (fuel : Nat) → Anchors → List Token → Except NodeFault (Found Node)
  | 0, _, _ => .error .malformed
  | fuel + 1, anchors, tokens =>
    if tokens.head?.any ends.contains then .ok (.nothing, anchors, tokens)
    else read handles block unindented fuel anchors tokens

/-- The entries of a block sequence up to its end. -/
def blockItems (handles : Handles) :
    (fuel : Nat) → Anchors → List Token → Except NodeFault (Found (List Node))
  | 0, _, _ => .error .malformed
  | fuel + 1, anchors, tokens =>
    match tokens with
    | .blockEntry :: rest => do
      let (n, anchors, rest) ←
        optional handles true false [.blockEntry, .blockEnd] fuel anchors rest
      let (ns, anchors, rest) ← blockItems handles fuel anchors rest
      .ok (n :: ns, anchors, rest)
    | .blockEnd :: rest => .ok ([], anchors, rest)
    | _ => .error (refusal tokens)

/-- The entries of a sequence that is not indented. -/
def unindentedItems (handles : Handles) :
    (fuel : Nat) → Anchors → List Token → Except NodeFault (Found (List Node))
  | 0, _, _ => .error .malformed
  | fuel + 1, anchors, tokens =>
    match tokens with
    | .blockEntry :: rest => do
      let (n, anchors, rest) ←
        optional handles true false [.blockEntry, .key, .value, .blockEnd] fuel anchors rest
      let (ns, anchors, rest) ← unindentedItems handles fuel anchors rest
      .ok (n :: ns, anchors, rest)
    | rest => .ok ([], anchors, rest)

/-- The value of an entry of a block mapping. -/
def blockValue (handles : Handles) :
    (fuel : Nat) → Anchors → List Token → Except NodeFault (Found Node)
  | 0, _, _ => .error .malformed
  | fuel + 1, anchors, tokens =>
    match tokens with
    | .value :: rest => optional handles true true [.key, .value, .blockEnd] fuel anchors rest
    | rest => .ok (.nothing, anchors, rest)

/-- The entries of a block mapping up to its end. -/
def blockEntries (handles : Handles) :
    (fuel : Nat) → Anchors → List Token → Except NodeFault (Found (List (Node × Node)))
  | 0, _, _ => .error .malformed
  | fuel + 1, anchors, tokens =>
    match tokens with
    | .key :: rest => do
      let (k, anchors, rest) ←
        optional handles true true [.key, .value, .blockEnd] fuel anchors rest
      let (v, anchors, rest) ← blockValue handles fuel anchors rest
      let (es, anchors, rest) ← blockEntries handles fuel anchors rest
      .ok ((k, v) :: es, anchors, rest)
    | .value :: _ => do
      let (v, anchors, rest) ← blockValue handles fuel anchors tokens
      let (es, anchors, rest) ← blockEntries handles fuel anchors rest
      .ok ((.nothing, v) :: es, anchors, rest)
    | .blockEnd :: rest => .ok ([], anchors, rest)
    | _ => .error (refusal tokens)

/-- The items of a flow sequence up to its bracket. -/
def flowItems (handles : Handles) (first : Bool) :
    (fuel : Nat) → Anchors → List Token → Except NodeFault (Found (List Node))
  | 0, _, _ => .error .malformed
  | fuel + 1, anchors, tokens =>
    match tokens with
    | .flowSequenceEnd :: rest => .ok ([], anchors, rest)
    | _ =>
      let separated := tokens.head? == some .flowEntry
      -- A comma may stand in front of the bracket, but items need one between them.
      if !first && !separated then .error (refusal tokens)
      else
        let tokens := if first then tokens else tokens.drop 1
        match tokens with
        | .flowSequenceEnd :: rest => .ok ([], anchors, rest)
        | .key :: rest => do
          let (k, anchors, rest) ←
            optional handles false false [.value, .flowEntry, .flowSequenceEnd] fuel anchors rest
          let (v, anchors, rest) ←
            flowValue handles [.flowEntry, .flowSequenceEnd] fuel anchors rest
          let (ns, anchors, rest) ← flowItems handles false fuel anchors rest
          -- A single pair among items is a mapping of its own.
          .ok (.mapping none [(k, v)] :: ns, anchors, rest)
        | _ => do
          let (n, anchors, rest) ← read handles false false fuel anchors tokens
          let (ns, anchors, rest) ← flowItems handles false fuel anchors rest
          .ok (n :: ns, anchors, rest)

/-- The value of an entry of a flow collection. -/
def flowValue (handles : Handles) (ends : List Token) :
    (fuel : Nat) → Anchors → List Token → Except NodeFault (Found Node)
  | 0, _, _ => .error .malformed
  | fuel + 1, anchors, tokens =>
    match tokens with
    | .value :: rest => optional handles false false ends fuel anchors rest
    | rest => .ok (.nothing, anchors, rest)

/-- The entries of a flow mapping up to its brace. -/
def flowEntries (handles : Handles) (first : Bool) :
    (fuel : Nat) → Anchors → List Token → Except NodeFault (Found (List (Node × Node)))
  | 0, _, _ => .error .malformed
  | fuel + 1, anchors, tokens =>
    match tokens with
    | .flowMappingEnd :: rest => .ok ([], anchors, rest)
    | _ =>
      let separated := tokens.head? == some .flowEntry
      if !first && !separated then .error (refusal tokens)
      else
        let tokens := if first then tokens else tokens.drop 1
        match tokens with
        | .flowMappingEnd :: rest => .ok ([], anchors, rest)
        | .key :: rest => do
          let (k, anchors, rest) ←
            optional handles false false [.value, .flowEntry, .flowMappingEnd] fuel anchors rest
          let (v, anchors, rest) ←
            flowValue handles [.flowEntry, .flowMappingEnd] fuel anchors rest
          let (es, anchors, rest) ← flowEntries handles false fuel anchors rest
          .ok ((k, v) :: es, anchors, rest)
        | _ => do
          let (n, anchors, rest) ← read handles false false fuel anchors tokens
          let (es, anchors, rest) ← flowEntries handles false fuel anchors rest
          .ok ((n, .nothing) :: es, anchors, rest)

end

/-! ## Documents -/

/-- What the directives in front of a document say. -/
structure Directives where
  versioned : Bool
  handles : Handles

/-- Reads the directives in front of a document. -/
def directives : Directives → List Token → Except NodeFault (Directives × List Token)
  | d, .versionDirective major :: rest =>
    if d.versioned || major != 1 then .error .malformed
    else directives { d with versioned := true } rest
  | d, .tagDirective handle start :: rest =>
    if (d.handles.lookup handle).isSome then .error .malformed
    else directives { d with handles := (handle, start) :: d.handles } rest
  | d, .otherDirective :: rest => directives d rest
  | d, tokens => .ok (d, tokens)

/-- Whether a directive or a document mark stands here. -/
def startsExplicitly : List Token → Bool
  | .versionDirective _ :: _ | .tagDirective _ _ :: _ | .otherDirective :: _
  | .documentStart :: _ => true
  | _ => false

/-- Whether nothing stands between the start of a document and what follows it. -/
def isBare : List Token → Bool
  | .documentEnd :: _ | .streamEnd :: _ => true
  | tokens => startsExplicitly tokens

/-- What follows the only document of a text: end marks, then the end. Of another document the
directives are read before it is refused. -/
def finish (tokens : List Token) : Except NodeFault Unit :=
  let rest := tokens.dropWhile (· == .documentEnd)
  if rest == [.streamEnd] then .ok ()
  else do
    let (_, rest) ← directives ⟨false, []⟩ rest
    .error (refusal rest)

/-- The only document of a text, if it has one. -/
def ofTokens (tokens : List Token) : Except NodeFault (Option Node) := do
  let fuel := 4 * tokens.length + 4
  if tokens == [.streamEnd] then .ok none
  else
    let (n, rest) ←
      if startsExplicitly tokens then do
        let (d, rest) ← directives ⟨false, []⟩ tokens
        match rest with
        | .documentStart :: rest =>
          if isBare rest then .ok (Node.nothing, rest)
          else do
            let (n, _, rest) ←
              read (d.handles ++ defaultHandles) true false fuel [] rest
            .ok (n, rest)
        | _ => .error (refusal rest)
      else do
        let (n, _, rest) ← read defaultHandles true false fuel [] tokens
        .ok (n, rest)
    finish rest
    .ok (some n)

end Node

end Formwork.Yaml
