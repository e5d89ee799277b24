import SymbolExport.Yaml.Node
import SymbolExport.Yaml.Value

/-!
The contents of a YAML document. Collections refer to their items by number, since a collection may
lie below itself. Scalars are read as they are met, and a collection's items in the order in which
the collections were met.
-/
namespace SymbolExport.Yaml

inductive Content
  | scalar (v : ScalarValue)
  | list (items : List Nat)
  | pairs (entries : List (Nat × Nat))
  | table (entries : List (ScalarValue × Nat))
  | set (keys : List ScalarValue)
  deriving Repr

/-- Nodes, what is known of their contents, and the collections still to be filled. -/
structure Builder where
  nodes : Array Node
  contents : List (Nat × Content) := []
  waiting : List Nat := []

abbrev Build := StateT Builder (Except Fault)

namespace Builder

def nodeAt (number : Nat) : Build Node := do
  match (← get).nodes[number]? with
  | some node => return node
  | none => throw .malformed

def setNode (number : Nat) (node : Node) : Build Unit :=
  modify fun b => { b with nodes := b.nodes.setIfInBounds number node }

/-- The text of a scalar. That of a mapping is the one of its default entry. -/
def textOf (number : Nat) : Nat → Build (List Char)
  | 0 => throw .malformed
  | fuel + 1 => do
    match (← nodeAt number).body with
    | .scalar text => return text
    | .sequence _ => throw .malformed
    | .mapping entries =>
      let mut found : Option Nat := none
      for (key, value) in entries do
        if found.isNone && (← nodeAt key).tag = .default then found := some value
      match found with
      | some value => textOf value fuel
      | none => throw .malformed

/-- The value of a node with a scalar's tag. -/
def scalarOf (number : Nat) (node : Node) : Build (Option ScalarValue) := do
  let text := textOf number ((← get).nodes.size + 1)
  match node.tag with
  | .null => let _ ← text; return some .null
  | .bool => return some (← (boolOf (← text) : Except Fault ScalarValue))
  | .int => return some (← (intOf (← text) : Except Fault ScalarValue))
  | .float => return some (← (floatOf (← text) : Except Fault ScalarValue))
  | .str => return some (.str (← text))
  | .binary => return some (← (binaryOf (← text) : Except Fault ScalarValue))
  | .timestamp =>
    let text ← text
    match node.body with
    | .scalar _ => return some (← (momentOf text : Except Fault ScalarValue))
    | _ => throw .momentOfTable
  | _ => return none

def emptyOf? : Tag → Option Content
  | .sequence => some (.list [])
  | .mapping => some (.table [])
  | .set => some (.set [])
  | .orderedMap | .pairs => some (.pairs [])
  | _ => none

/-- Meets a node: reads it if it is a scalar, or puts it off if it is a collection. -/
def visit (number : Nat) : Build Content := do
  match (← get).contents.find? fun entry => entry.1 = number with
  | some (_, content) => return content
  | none =>
    let node ← nodeAt number
    let (content, waits) ← match ← scalarOf number node, emptyOf? node.tag with
      | some v, _ => pure (Content.scalar v, [])
      | none, some content => pure (content, [number])
      | none, none => throw .malformed
    modify fun b =>
      { b with contents := (number, content) :: b.contents, waiting := b.waiting ++ waits }
    return content

def setContent (number : Nat) (content : Content) : Build Unit :=
  modify fun b => { b with
    contents := b.contents.map fun entry => if entry.1 = number then (number, content) else entry }

mutual

/-- Puts the entries of merged mappings before the other entries of a mapping, and makes a default
key a text. -/
def flatten (number : Nat) : Nat → Build (List (Nat × Nat))
  | 0 => throw .malformed
  | fuel + 1 => do
    let node ← nodeAt number
    match node.body with
    | .mapping entries =>
      let merged ← mergeFrom number entries.length fuel
      let node ← nodeAt number
      match node.body with
      | .mapping kept =>
        let all := merged ++ kept
        setNode number { node with body := .mapping all }
        return all
      | _ => throw .malformed
    | _ => throw .malformed

/-- Takes the first merge entry out of a mapping, as often as there is one. -/
def mergeFrom (number : Nat) (left : Nat) : Nat → Build (List (Nat × Nat))
  | 0 => throw .malformed
  | fuel + 1 => do
    let node ← nodeAt number
    match node.body with
    | .mapping entries =>
      let tags ← entries.mapM fun entry => do return (← nodeAt entry.1).tag
      let start := (tags.takeWhile fun tag => tag ≠ .merge).length
      match entries[start]? with
      | none => return []
      | some (_, value) =>
        setNode number { node with body := .mapping (entries.eraseIdx start) }
        let merged ← match (← nodeAt value).body with
          | .mapping _ => flatten value fuel
          | .sequence items =>
            let parts ← flattenAll items fuel
            pure parts.reverse.flatten
          | .scalar _ => throw .malformed
        return merged ++ (← mergeFrom number left fuel)
    | _ => throw .malformed

def flattenAll (items : List Nat) : Nat → Build (List (List (Nat × Nat)))
  | 0 => throw .malformed
  | fuel + 1 => do
    match items with
    | [] => return []
    | item :: rest =>
      let entries ← flatten item fuel
      return entries :: (← flattenAll rest fuel)

end

/-- Makes the default keys of a mapping texts. -/
def settleDefaults (entries : List (Nat × Nat)) : Build Unit :=
  entries.forM fun (key, _) => do
    let node ← nodeAt key
    if node.tag = .default then setNode key { node with tag := .str }

/-- Equal keys keep their place and take the last value. -/
def insertKey (key : ScalarValue) (value : Nat) :
    List (ScalarValue × Nat) → List (ScalarValue × Nat)
  | [] => [(key, value)]
  | entry :: rest =>
    if entry.1.sameKey key then (entry.1, value) :: rest else entry :: insertKey key value rest

/-- The entries of a table; only scalars can be keys. -/
def tableOf (number : Nat) : Build (List (ScalarValue × Nat)) := do
  let b ← get
  let size := (b.nodes.toList.map fun node => match node.body with
    | .mapping entries => entries.length + 2
    | .sequence items => items.length + 2
    | .scalar _ => 1).foldl (· + ·) 0
  let entries ← flatten number (size * size + 8)
  settleDefaults entries
  entries.foldlM (fun table (key, value) => do
    match ← visit key with
    | .scalar k =>
      let _ ← visit value
      return insertKey k value table
    | _ => throw .malformed) []

/-- The entries of a list of mappings with one entry each. -/
def pairOf (number : Nat) : Build (Nat × Nat) := do
  match (← nodeAt number).body with
  | .mapping [(key, value)] =>
    let _ ← visit key
    let _ ← visit value
    return (key, value)
  | _ => throw .malformed

def itemsOf (number : Nat) : Build (List Nat) := do
  match (← nodeAt number).body with
  | .sequence items => return items
  | _ => throw .malformed

/-- Reads the items of a collection. -/
def fill (number : Nat) : Build Unit := do
  match (← nodeAt number).tag with
  | .sequence =>
    let items ← itemsOf number
    items.forM fun item => do let _ ← visit item
    setContent number (.list items)
  | .mapping => setContent number (.table (← tableOf number))
  | .set => setContent number (.set ((← tableOf number).map Prod.fst))
  | _ => setContent number (.pairs (← (← itemsOf number).mapM pairOf))

/-- Fills the waiting collections, which may make others wait. -/
def fillAll : Nat → Build Unit
  | 0 => return ()
  | fuel + 1 => do
    let b ← get
    match b.waiting with
    | [] => return ()
    | number :: rest =>
      set { b with waiting := rest }
      fill number
      fillAll fuel

end Builder

/-- A document: the contents of its nodes, and that of its root. -/
structure Document where
  contents : List (Nat × Content)
  root : Content

def Document.content? (d : Document) (number : Nat) : Option Content :=
  (d.contents.find? fun entry => entry.1 = number).map Prod.snd

/-- The scalar of that number. -/
def Document.scalar? (d : Document) (number : Nat) : Option ScalarValue :=
  match d.content? number with
  | some (.scalar v) => some v
  | _ => none

/-- A reader makes the document of a text. -/
abbrev DocumentReader := List Char → Except Fault Document

/-- Reads the document of a text; a text without one has the null document. -/
def Document.read (text : List Char) : Except Fault Document := do
  let (nodes, root?) ← readNodes text
  match root? with
  | none => return ⟨[], .scalar .null⟩
  | some root =>
    let build : Build Unit := do
      let _ ← Builder.visit root
      Builder.fillAll (nodes.size + 1)
    let (_, b) ← build.run { nodes := nodes }
    match b.contents.find? fun entry => entry.1 = root with
    | some (_, content) => return ⟨b.contents, content⟩
    | none => throw .malformed

end SymbolExport.Yaml
