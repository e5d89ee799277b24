import SymbolExport.Yaml.Tag
import SymbolExport.Yaml.Token

/-!
The nodes of a YAML document. An alias is the node of its anchor, so nodes are numbered and refer to
each other by number; a node may lie below itself.
-/
namespace SymbolExport.Yaml

inductive NodeBody
  | scalar (text : List Char)
  | sequence (items : List Nat)
  | mapping (entries : List (Nat × Nat))
  deriving Repr

structure Node where
  tag : Tag
  body : NodeBody
  deriving Repr

/-- A state of reading: the tokens ahead, the fault behind the last one, the nodes so far, and what
names stand for. -/
structure Reader where
  ahead : List Token
  fault? : Option Fault
  nodes : Array Node := #[]
  anchors : List (List Char × Nat) := []
  handles : List (List Char × List Char) := []

abbrev Read := StateT Reader (Except Fault)

namespace Reader

def peek : Read Token := do
  let r ← get
  match r.ahead, r.fault? with
  | t :: _, _ => return t
  | [], some fault => throw fault
  | [], none => throw .malformed

def pop : Read Unit :=
  modify fun r => { r with ahead := r.ahead.tail }

/-- Passes a token if it is the given one. -/
def popIf (t : Token) : Read Bool := do
  if (← peek) = t then pop; return true else return false

def require (t : Token) : Read Unit := do
  if !(← popIf t) then throw .malformed

/-- Adds a node, and makes it the one of its anchor; an anchor may be given once. -/
def add (anchor? : Option (List Char)) (node : Node) : Read Nat := do
  let r ← get
  let number := r.nodes.size
  let anchors ← match anchor? with
    | none => pure r.anchors
    | some name =>
      if r.anchors.any fun entry => entry.1 = name then throw .malformed
      else pure ((name, number) :: r.anchors)
  set { r with nodes := r.nodes.push node, anchors := anchors }
  return number

def setBody (number : Nat) (body : NodeBody) : Read Unit :=
  modify fun r => { r with nodes := r.nodes.modify number fun node => { node with body := body } }

/-- A node without content. -/
def addEmpty : Read Nat :=
  add none ⟨.null, .scalar []⟩

/-- The anchor and the tag before a node, in either order. -/
def properties : Read (Option (List Char) × Option (List Char)) := do
  let anchor : Read (Option (List Char)) := do
    match ← peek with
    | .anchor name => pop; return some name
    | _ => return none
  let tag : Read (Option (List Char)) := do
    match ← peek with
    | .tag none suffix => pop; return some suffix
    | .tag (some handle) suffix =>
      pop
      match (← get).handles.find? fun entry => entry.1 = handle with
      | some (_, start) => return some (start ++ suffix)
      | none => throw .malformed
    | _ => return none
  match ← anchor with
  | some name => return (some name, ← tag)
  | none =>
    let uri? ← tag
    return (← if uri?.isSome then anchor else pure none, uri?)

/-- The tag of a collection: its own, unless it has none or the one that leaves it open. -/
def collectionTag (uri? : Option (List Char)) (tag : Tag) : Tag :=
  match uri? with
  | none | some ['!'] => tag
  | some uri => .ofUri uri

def scalarTag (uri? : Option (List Char)) (text : List Char) (isPlain : Bool) : Tag :=
  match uri? with
  | none => if isPlain then .ofPlain text else .str
  | some ['!'] => .ofPlain text
  | some uri => .ofUri uri

mutual

/-- A node. Block collections are taken only if `inBlock`, and entries without a deeper indentation
only if `indentless`. -/
def node (inBlock indentless : Bool) : Nat → Read Nat
  | 0 => throw .malformed
  | fuel + 1 => do
    if let .alias name ← peek then
      pop
      match (← get).anchors.find? fun entry => entry.1 = name with
      | some (_, number) => return number
      | none => throw .malformed
    let (anchor?, uri?) ← properties
    let sequence (items : Read (List Nat)) : Read Nat := do
      let number ← add anchor? ⟨collectionTag uri? .sequence, .sequence []⟩
      setBody number (.sequence (← items))
      return number
    let mapping (entries : Read (List (Nat × Nat))) : Read Nat := do
      let number ← add anchor? ⟨collectionTag uri? .mapping, .mapping []⟩
      setBody number (.mapping (← entries))
      return number
    match ← peek with
    | .blockEntry => if indentless then sequence (indentlessEntries fuel) else empty anchor? uri?
    | .scalar text isPlain =>
      pop
      add anchor? ⟨scalarTag uri? text isPlain, .scalar text⟩
    | .flowSequenceStart => pop; sequence (flowItems true fuel)
    | .flowMappingStart => pop; mapping (flowEntries true fuel)
    | .sequenceStart =>
      if inBlock then pop; sequence (blockItems fuel) else empty anchor? uri?
    | .mappingStart =>
      if inBlock then pop; mapping (blockEntries fuel) else empty anchor? uri?
    | _ => empty anchor? uri?
where
  /-- An anchor or a tag may stand alone. -/
  empty (anchor? uri? : Option (List Char)) : Read Nat :=
    if anchor?.isSome || uri?.isSome then add anchor? ⟨scalarTag uri? [] true, .scalar []⟩
    else throw .malformed

/-- A node, or an empty one before one of the given tokens. -/
def nodeUnless (stops : List Token) (inBlock indentless : Bool) : Nat → Read Nat
  | 0 => throw .malformed
  | fuel + 1 => do
    if (← peek) ∈ stops then addEmpty else node inBlock indentless fuel

def blockItems : Nat → Read (List Nat)
  | 0 => throw .malformed
  | fuel + 1 => do
    if ← popIf .blockEntry then
      let item ← nodeUnless [.blockEntry, .blockEnd] true false fuel
      return item :: (← blockItems fuel)
    else
      require .blockEnd
      return []

def indentlessEntries : Nat → Read (List Nat)
  | 0 => throw .malformed
  | fuel + 1 => do
    if ← popIf .blockEntry then
      let item ← nodeUnless [.blockEntry, .key, .value, .blockEnd] true false fuel
      return item :: (← indentlessEntries fuel)
    else return []

def blockEntries : Nat → Read (List (Nat × Nat))
  | 0 => throw .malformed
  | fuel + 1 => do
    let stops : List Token := [.key, .value, .blockEnd]
    if ← popIf .key then
      let key ← nodeUnless stops true true fuel
      let value ← if ← popIf .value then nodeUnless stops true true fuel else addEmpty
      return (key, value) :: (← blockEntries fuel)
    else
      require .blockEnd
      return []

def flowItems (isFirst : Bool) : Nat → Read (List Nat)
  | 0 => throw .malformed
  | fuel + 1 => do
    if ← popIf .flowSequenceEnd then return []
    if !isFirst then require .flowEntry
    if ← popIf .key then
      let number ← add none ⟨.mapping, .mapping []⟩
      let key ← nodeUnless [.value, .flowEntry, .flowSequenceEnd] false false fuel
      let value ← if ← popIf .value then
          nodeUnless [.flowEntry, .flowSequenceEnd] false false fuel
        else addEmpty
      setBody number (.mapping [(key, value)])
      return number :: (← flowItems false fuel)
    if ← popIf .flowSequenceEnd then return []
    let item ← node false false fuel
    return item :: (← flowItems false fuel)

def flowEntries (isFirst : Bool) : Nat → Read (List (Nat × Nat))
  | 0 => throw .malformed
  | fuel + 1 => do
    if ← popIf .flowMappingEnd then return []
    if !isFirst then require .flowEntry
    if ← popIf .key then
      let key ← nodeUnless [.value, .flowEntry, .flowMappingEnd] false false fuel
      let value ← if ← popIf .value then
          nodeUnless [.flowEntry, .flowMappingEnd] false false fuel
        else addEmpty
      return (key, value) :: (← flowEntries false fuel)
    if ← popIf .flowMappingEnd then return []
    let key ← node false false fuel
    let value ← addEmpty
    return (key, value) :: (← flowEntries false fuel)

end

def defaultHandles : List (List Char × List Char) :=
  [(['!'], ['!']), (['!', '!'], standardStart)]

/-- The directives before a document. There may be one version, and one start of tags for each
handle. -/
def directives (hasVersion : Bool) (handles : List (List Char × List Char)) : Nat → Read Unit
  | 0 => throw .malformed
  | fuel + 1 => do
    match ← peek with
    | .directive (.version major) =>
      pop
      if hasVersion || major ≠ 1 then throw .malformed
      directives true handles fuel
    | .directive (.tag handle start) =>
      pop
      if handles.any fun entry => entry.1 = handle then throw .malformed
      directives hasVersion ((handle, start) :: handles) fuel
    | .directive .other => pop; directives hasVersion handles fuel
    | _ => modify fun r => { r with handles := handles ++ defaultHandles }

/-- Passes marks of a document's end. -/
def popEnds : Nat → Read Unit
  | 0 => return ()
  | fuel + 1 => do
    if ← popIf .documentEnd then popEnds fuel

def isDocumentMark : Token → Bool
  | .directive _ | .documentStart | .documentEnd | .streamEnd => true
  | _ => false

/-- The root of the only document, if there is one. -/
def document (fuel : Nat) : Read (Option Nat) := do
  match ← peek with
  | .streamEnd => return none
  | .directive _ | .documentStart =>
    directives false [] fuel
    require .documentStart
    let root ← if isDocumentMark (← peek) then addEmpty else node true false fuel
    finish root
  | _ =>
    modify fun r => { r with handles := defaultHandles }
    finish (← node true false fuel)
where
  finish (root : Nat) : Read (Option Nat) := do
    popEnds fuel
    require .streamEnd
    return some root

end Reader

/-- The nodes of a text and the number of the root, if the text has a document. -/
def readNodes (text : List Char) : Except Fault (Array Node × Option Nat) := do
  if !text.all isAllowed then throw .malformed
  let (tokens, fault?) := tokenize text
  let (root?, r) ← (Reader.document (4 * tokens.length + 8)).run { ahead := tokens, fault? }
  return (r.nodes, root?)

end SymbolExport.Yaml
