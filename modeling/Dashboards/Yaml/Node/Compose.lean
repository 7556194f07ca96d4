import Dashboards.Yaml.Node

/-!
# From tokens to documents

The grammar of YAML over tokens.  Every function takes what is left of the tokens and fails on
tokens that fit no rule.  Anchors are numbered as they are met.  An anchor gets as its id the number
of names in use, and takes a name over from an earlier anchor.

Directives may stand before the document, which then must be marked as starting.  They say what the
handles of tags stand for, two of which have a meaning of their own.
-/

namespace Dashboards.Yaml

/-! ## Directives -/

/-- The directives at the start of some tokens, and the tokens after them. -/
def splitDirectives : List Token → List Directive × List Token
  | .directive d :: ts =>
    let (ds, ts) := splitDirectives ts
    (d :: ds, ts)
  | ts => ([], ts)

/-- The versions that directives give. -/
def versionsOf (ds : List Directive) : List (Nat × Nat) :=
  ds.filterMap fun
    | .version major minor => some (major, minor)
    | .handle _ _ => none

/-- What directives say of handles. -/
def handlesOf (ds : List Directive) : List (String × String) :=
  ds.filterMap fun
    | .version _ _ => none
    | .handle name stem => some (name, stem)

/-- Whether directives may stand before a document: one at most gives a version, which is 1.1 or
1.2, and no handle is explained twice. -/
def areConsistent (ds : List Directive) : Bool :=
  (versionsOf ds).length ≤ 1 && (versionsOf ds).all ([(1, 1), (1, 2)].contains ·) &&
    decide ((handlesOf ds).map (·.1)).Nodup

/-- What handles stand for that no directive explains. -/
def standardHandles : List (String × String) := [("!", "!"), ("!!", "tag:yaml.org,2002:")]

/-! ## Parts of a composition -/

/-- What a composition has at hand: the tokens left, what handles stand for, the names of anchors
with their ids, the number of anchors met, and the nodes of anchors. -/
structure Composition where
  tokens : List Token
  handles : List (String × String)
  names : List (String × Nat) := []
  met : Nat := 0
  anchored : List (Nat × Nat × Node) := []

/-- A part of a composition. -/
abbrev Compose := StateT Composition Option

namespace Compose

/-- The next token. -/
def peek : Compose (Option Token) := do return (← get).tokens.head?

/-- Passes over the next token. -/
def skip : Compose Unit := modify fun c => { c with tokens := c.tokens.drop 1 }

/-- Gives a name to the next node, and returns its number and its id. -/
def introduce (name : String) : Compose (Nat × Nat) := do
  let c ← get
  let id := c.names.length
  set { c with names := (name, id) :: c.names.filter (·.1 != name), met := c.met + 1 }
  return (c.met, id)

/-- Keeps the node of an anchor. -/
def keep (number id : Nat) (node : Node) : Compose Unit :=
  modify fun c => { c with anchored := (number, id, node) :: c.anchored }

/-- The id of a name in use. -/
def idOf (name : String) : Compose Nat := do
  match (← get).names.lookup name with
  | some id => return id
  | none => failure

/-- The tag of a handle and a suffix. -/
def tagOf (handle suffix : String) : Compose String := do
  if handle = "" then return suffix
  match (← get).handles.lookup handle with
  | some stem => return stem ++ suffix
  | none => failure

/-- The name of the anchor and the tag before a node. -/
structure Properties where
  anchor : Option String := none
  tag : Option String := none

/-- Whether anything stands before a node. -/
def Properties.areAny (ps : Properties) : Bool := ps.anchor.isSome || ps.tag.isSome

/-- The properties of the next node, in either order. -/
def properties : Compose Properties := do
  match ← peek with
  | some (.anchor name) =>
    skip
    match ← peek with
    | some (.tag handle suffix) =>
      skip
      return { anchor := name, tag := ← tagOf handle suffix }
    | _ => return { anchor := name }
  | some (.tag handle suffix) =>
    skip
    let tag ← tagOf handle suffix
    match ← peek with
    | some (.anchor name) =>
      skip
      return { anchor := name, tag := tag }
    | _ => return { tag := tag }
  | _ => return {}

/-- Nothing, which only properties may stand before. -/
def nothing (ps : Properties) : Compose Node :=
  if ps.areAny then return .scalar { text := "", style := .plain, tag := ps.tag } else failure

/-- Whether the next token is one of some. -/
def nextIs (ts : List Token) : Compose Bool := do
  match ← peek with
  | some t => return ts.contains t
  | none => return false

mutual

/-- A node.  In a block it may be a block collection, and as a part of a block mapping also a
sequence that is not indented. -/
def node (inBlock mayBeFlush : Bool) : Nat → Compose Node
  | 0 => failure
  | fuel + 1 => do
    match ← peek with
    | some (.aliasOf name) =>
      skip
      return .aliasOf (← idOf name)
    | _ =>
      let ps ← properties
      match ps.anchor with
      | none => content inBlock mayBeFlush ps fuel
      | some name =>
        let (number, id) ← introduce name
        let n ← content inBlock mayBeFlush ps fuel
        keep number id n
        return n

/-- What a node is, after its properties. -/
def content (inBlock mayBeFlush : Bool) (ps : Properties) : Nat → Compose Node
  | 0 => failure
  | fuel + 1 => do
    match ← peek with
    | some (.scalar text style) =>
      skip
      return .scalar { text := text, style := style, tag := ps.tag }
    | some .flowSequenceStart =>
      skip
      return .sequence (← flowItems true fuel)
    | some .flowMappingStart =>
      skip
      return .mapping (← flowEntries true fuel)
    | some .blockEntry =>
      if mayBeFlush then return .sequence (← flushItems fuel) else nothing ps
    -- a block collection is out of place in a flow collection
    | some .blockSequenceStart =>
      if inBlock then
        skip
        return .sequence (← blockItems fuel)
      else nothing ps
    | some .blockMappingStart =>
      if inBlock then
        skip
        return .mapping (← blockEntries fuel)
      else nothing ps
    | _ => nothing ps

/-- The items of a block sequence. -/
def blockItems : Nat → Compose (List Node)
  | 0 => failure
  | fuel + 1 => do
    match ← peek with
    | some .blockEntry =>
      skip
      let item ← if ← nextIs [.blockEntry, .blockEnd] then pure Node.empty
        else node true false fuel
      return item :: (← blockItems fuel)
    | some .blockEnd =>
      skip
      return []
    | _ => failure

/-- The items of a sequence that is not indented. -/
def flushItems : Nat → Compose (List Node)
  | 0 => failure
  | fuel + 1 => do
    match ← peek with
    | some .blockEntry =>
      skip
      let item ← if ← nextIs [.blockEntry, .key, .value, .blockEnd] then pure Node.empty
        else node true false fuel
      return item :: (← flushItems fuel)
    | _ => return []

/-- The entries of a block mapping. -/
def blockEntries : Nat → Compose (List (Node × Node))
  | 0 => failure
  | fuel + 1 => do
    match ← peek with
    | some .key =>
      skip
      let k ← blockPart fuel
      let v ← if ← nextIs [.value] then do
          skip
          blockPart fuel
        else pure Node.empty
      return (k, v) :: (← blockEntries fuel)
    | some .blockEnd =>
      skip
      return []
    | _ => failure

/-- A key or a value of a block mapping. -/
def blockPart : Nat → Compose Node
  | 0 => failure
  | fuel + 1 => do
    if ← nextIs [.key, .value, .blockEnd] then return .empty
    else node true true fuel

/-- The items of a flow sequence; all but the first follow a comma, and one may follow the last. -/
def flowItems (isFirst : Bool) : Nat → Compose (List Node)
  | 0 => failure
  | fuel + 1 => do
    if ← nextIs [.flowSequenceEnd] then
      skip
      return []
    if !isFirst then
      if ← nextIs [.flowEntry] then skip else failure
    if ← nextIs [.flowSequenceEnd] then
      skip
      return []
    let item ← if ← nextIs [.key] then do
        skip
        pairItem fuel
      else node false false fuel
    return item :: (← flowItems false fuel)

/-- An item of a flow sequence that is a mapping of one entry, after the mark of its key. -/
def pairItem : Nat → Compose Node
  | 0 => failure
  | fuel + 1 => do
    let k ← if ← nextIs [.value, .flowEntry, .flowSequenceEnd] then do
        -- the token itself is used up by a key with nothing in it
        skip
        pure Node.empty
      else node false false fuel
    let v ← if ← nextIs [.value] then do
        skip
        if ← nextIs [.flowEntry, .flowSequenceEnd] then pure Node.empty
        else node false false fuel
      else pure Node.empty
    return .mapping [(k, v)]

/-- The entries of a flow mapping; all but the first follow a comma, and one may follow the last. -/
def flowEntries (isFirst : Bool) : Nat → Compose (List (Node × Node))
  | 0 => failure
  | fuel + 1 => do
    if ← nextIs [.flowMappingEnd] then
      skip
      return []
    if !isFirst then
      if ← nextIs [.flowEntry] then skip else failure
    if ← nextIs [.flowMappingEnd] then
      skip
      return []
    let entry ← if ← nextIs [.key] then do
        skip
        keyedEntry fuel
      else do
        let k ← node false false fuel
        pure (k, Node.empty)
    return entry :: (← flowEntries false fuel)

/-- An entry of a flow mapping after the mark of its key. -/
def keyedEntry : Nat → Compose (Node × Node)
  | 0 => failure
  | fuel + 1 => do
    let k ← if ← nextIs [.value, .flowEntry, .flowMappingEnd] then pure Node.empty
      else node false false fuel
    let v ← if ← nextIs [.value] then do
        skip
        if ← nextIs [.flowEntry, .flowMappingEnd] then pure Node.empty
        else node false false fuel
      else pure Node.empty
    return (k, v)

end

/-- Passes over marks of the end of a document. -/
def skipEnds : Compose Unit :=
  modify fun c => { c with tokens := c.tokens.dropWhile (· == .documentEnd) }

/-- The root of the only document of a text, `none` if there is nothing in the text. -/
def root (fuel : Nat) : Compose (Option Node) := do
  match ← peek with
  | none => return none
  | some t =>
    let n ← if t == .documentStart then do
        skip
        if (← peek).isNone || (← nextIs [.documentStart, .documentEnd]) then pure Node.empty
        else node true false fuel
      else node true false fuel
    skipEnds
    if (← peek).isNone then return some n else failure

end Compose

/-- The only document of a text, `none` if the text breaks the rules or has several documents. -/
def Document.ofText? (text : String) : Option Document := do
  let (ds, ts) := splitDirectives (← tokens? text)
  if !areConsistent ds then none
  if ds ≠ [] ∧ ts.head? ≠ some .documentStart then none
  let start : Composition := { tokens := ts, handles := handlesOf ds ++ standardHandles }
  let (root, c) ← (Compose.root (3 * ts.length + 3)).run start
  return ⟨root, c.anchored⟩

end Dashboards.Yaml
