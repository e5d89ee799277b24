import SymbolExport.Text.Utf8
import SymbolExport.Yaml.Scalar

/-!
Tokens of a YAML text. What opens a mapping is known only at the colon behind its first key, so a
token that may be a key is remembered until then.
-/
namespace SymbolExport.Yaml

inductive Directive
  | version (major : Nat)
  | tag (handle start : List Char)
  | other
  deriving DecidableEq, Repr

inductive Token
  | directive (d : Directive)
  | documentStart
  | documentEnd
  | sequenceStart
  | mappingStart
  | blockEnd
  | flowSequenceStart
  | flowSequenceEnd
  | flowMappingStart
  | flowMappingEnd
  | blockEntry
  | flowEntry
  | key
  | value
  | alias (name : List Char)
  | anchor (name : List Char)
  | tag (handle? : Option (List Char)) (suffix : List Char)
  | scalar (text : List Char) (isPlain : Bool)
  | streamEnd
  deriving DecidableEq, Repr

/-- A token that may turn out to be a key: its number, and where it stands. A required one must be a
key. -/
structure PossibleKey where
  token : Nat
  required : Bool
  index : Nat
  line : Nat
  column : Nat

structure Lexer where
  cursor : Cursor
  tokens : Array Token := #[]
  flowDepth : Nat := 0
  indent : Int := -1
  outer : List Int := []
  keyAllowed : Bool := true
  keys : List (Nat × PossibleKey) := []

/-- A key must be in one line, and no longer than this. -/
def maxKeyLength : Nat := 1024

namespace Lexer

def push (l : Lexer) (t : Token) : Lexer :=
  { l with tokens := l.tokens.push t }

def inFlow (l : Lexer) : Bool :=
  l.flowDepth > 0

/-- Passes blanks, comments and line breaks. -/
def skipBlanks (l : Lexer) : Nat → Lexer
  | 0 => l
  | fuel + 1 =>
    let c := l.cursor.skip (· = ' ')
    let c := if c.peek = '#' then c.skip fun x => !isBreakOrEnd x else c
    if isBreak c.peek then
      skipBlanks { l with cursor := c.next, keyAllowed := l.keyAllowed || !l.inFlow } fuel
    else { l with cursor := c }

/-- Forgets keys that can be none any more. -/
def dropStaleKeys (l : Lexer) : Except Fault Lexer :=
  let isStale (k : PossibleKey) : Bool :=
    k.line ≠ l.cursor.line || l.cursor.index - k.index > maxKeyLength
  if l.keys.any fun (_, k) => isStale k && k.required then .error .malformed
  else .ok { l with keys := l.keys.filter fun (_, k) => !isStale k }

/-- Forgets the possible key at the present depth. -/
def dropKey (l : Lexer) : Except Fault Lexer :=
  if l.keys.any fun (depth, k) => depth = l.flowDepth && k.required then .error .malformed
  else .ok { l with keys := l.keys.filter fun (depth, _) => depth ≠ l.flowDepth }

/-- Remembers the next token as a possible key. -/
def saveKey (l : Lexer) : Except Fault Lexer :=
  if l.keyAllowed then do
    let required := !l.inFlow && l.indent = l.cursor.column
    let l ← l.dropKey
    let k : PossibleKey :=
      ⟨l.tokens.size, required, l.cursor.index, l.cursor.line, l.cursor.column⟩
    return { l with keys := (l.flowDepth, k) :: l.keys }
  else .ok l

/-- Ends the blocks that are indented deeper than a column. -/
def unwind (l : Lexer) (column : Int) : Nat → Lexer
  | 0 => l
  | fuel + 1 =>
    if !l.inFlow && l.indent > column then
      match l.outer with
      | indent :: outer =>
        unwind ({ l with indent := indent, outer := outer }.push .blockEnd) column fuel
      | [] => l
    else l

def unwindTo (l : Lexer) (column : Int) : Lexer :=
  l.unwind column (l.outer.length + 1)

/-- Starts a block at a column, if it is deeper than the present one. -/
def indentTo? (l : Lexer) (column : Int) : Option Lexer :=
  if l.indent < column then some { l with indent := column, outer := l.indent :: l.outer }
  else none

/-- Passes characters and adds a token. -/
def take (l : Lexer) (n : Nat) (t : Token) : Lexer :=
  { l with cursor := l.cursor.advance n }.push t

def allowKey (l : Lexer) (allowed : Bool) : Lexer :=
  { l with keyAllowed := allowed }

end Lexer

/-! Directives and tags. -/
namespace Cursor

def versionNumber (c : Cursor) : Except Fault (Nat × Cursor) :=
  let (digits, c) := c.span Char.isDigit
  match Number.readNat? 10 digits with
  | some n => .ok (n, c)
  | none => .error .malformed

/-- An exclamation mark alone, or two with a word between them. -/
def tagHandle (c : Cursor) : Except Fault (List Char × Cursor) :=
  if c.peek ≠ '!' then .error .malformed
  else if c.peekAt 1 = ' ' then .ok (['!'], c.next)
  else
    let (word, rest) := c.next.span isWordChar
    if rest.peek = '!' then .ok ('!' :: word ++ ['!'], rest.next) else .error .malformed

def isTagChar (x : Char) : Bool :=
  x.isAlphanum || x ∈ "-;/?:@&=+$,_.!~*'()[]".toList

def escapedBytes (c : Cursor) : Nat → Except Fault (List UInt8 × Cursor)
  | 0 => .ok ([], c)
  | fuel + 1 =>
    if c.peek = '%' then
      let digits := (c.rest.drop 1).take 2
      if digits.length = 2 && digits.all isHexChar then do
        let (bytes, c) ← (c.advance 3).escapedBytes fuel
        return (UInt8.ofNat (hexValue digits) :: bytes, c)
      else .error .malformed
    else .ok ([], c)

def tagText (c : Cursor) (text : List Char) : Nat → Except Fault (List Char × Cursor)
  | 0 => .ok (text, c)
  | fuel + 1 =>
    if isTagChar c.peek then c.next.tagText (text ++ [c.peek]) fuel
    else if c.peek = '%' then do
      let (bytes, c) ← c.escapedBytes (c.rest.length + 1)
      match SymbolExport.Text.decodeUtf8 bytes with
      | .ok cs => c.tagText (text ++ cs) fuel
      | .error _ => throw .malformed
    else .ok (text, c)

/-- The characters of a tag or of the start of tags, of which there must be one. -/
def tagUri (c : Cursor) : Except Fault (List Char × Cursor) := do
  if isTagChar c.peek || c.peek = '%' then c.tagText [] (c.rest.length + 1)
  else throw .malformed

/-- The directive in a line that starts with a percent sign. -/
def directive (c : Cursor) : Except Fault (Directive × Cursor) := do
  let (name, c) := c.next.span isWordChar
  if name.isEmpty || !isSpaceOrEnd c.peek then throw .malformed
  let (d, c) ←
    if name = "YAML".toList then do
      let (major, c) ← (c.skip (· = ' ')).versionNumber
      if c.peek ≠ '.' then throw .malformed
      let (_, c) ← c.next.versionNumber
      if !isSpaceOrEnd c.peek then throw .malformed
      pure (Directive.version major, c)
    else if name = "TAG".toList then do
      let (handle, c) ← (c.skip (· = ' ')).tagHandle
      if c.peek ≠ ' ' then throw .malformed
      let (start, c) ← (c.skip (· = ' ')).tagUri
      if !isSpaceOrEnd c.peek then throw .malformed
      pure (Directive.tag handle start, c)
    else pure (Directive.other, c.skip fun x => !isBreakOrEnd x)
  return (d, ← c.endLine?)

/-- The name of an anchor or an alias behind its indicator. -/
def anchorName (c : Cursor) : Except Fault (List Char × Cursor) :=
  let (name, c) := c.next.span isWordChar
  if name.isEmpty || !(isBlankOrEnd c.peek || c.peek ∈ "?:,]\x7d%@`".toList) then
    .error .malformed
  else .ok (name, c)

/-- Whether a tag that starts here has a handle with two exclamation marks. -/
def hasHandle (c : Cursor) : Bool :=
  '!' ∈ c.next.rest.takeWhile fun x => !isSpaceOrEnd x

def tag (c : Cursor) : Except Fault (Token × Cursor) := do
  let (t, c) ←
    if c.peekAt 1 = '<' then do
      let (suffix, c) ← (c.advance 2).tagUri
      if c.peek ≠ '>' then throw .malformed
      pure (Token.tag none suffix, c.next)
    else if isBlankOrEnd (c.peekAt 1) then pure (Token.tag none ['!'], c.next)
    else do
      let (handle, c) ← if c.hasHandle then c.tagHandle else pure (['!'], c.next)
      let (suffix, c) ← c.tagUri
      pure (Token.tag (some handle) suffix, c)
  if isSpaceOrEnd c.peek then return (t, c) else throw .malformed

end Cursor

namespace Lexer

/-- A token that may be a key, made from the place of the cursor. -/
def takeKeyLike (l : Lexer) (scan : Cursor → Except Fault (Token × Cursor)) :
    Except Fault Lexer := do
  let l ← l.saveKey
  let (t, c) ← scan l.cursor
  return { l with cursor := c, keyAllowed := false }.push t

def openFlow (l : Lexer) (t : Token) : Except Fault Lexer := do
  let l ← l.saveKey
  return ({ l with flowDepth := l.flowDepth + 1, keyAllowed := true }).take 1 t

/-- A closing bracket must have an opening one. -/
def closeFlow (l : Lexer) (t : Token) : Except Fault Lexer := do
  let l ← l.dropKey
  if l.flowDepth = 0 then throw .malformed
  return ({ l with flowDepth := l.flowDepth - 1, keyAllowed := false }).take 1 t

/-- Starts a block collection where an entry or key stands, if it is the first one. -/
def startBlock (l : Lexer) (t : Token) : Except Fault Lexer :=
  if l.inFlow then .ok l
  else if !l.keyAllowed then .error .malformed
  else match l.indentTo? l.cursor.column with
    | some l => .ok (l.push t)
    | none => .ok l

def takeEntry (l : Lexer) : Except Fault Lexer := do
  let l ← (← l.startBlock .sequenceStart).dropKey
  return (l.allowKey true).take 1 .blockEntry

def takeComplexKey (l : Lexer) : Except Fault Lexer := do
  let l ← (← l.startBlock .mappingStart).dropKey
  return (l.allowKey !l.inFlow).take 1 .key

/-- A colon: the token remembered at this depth becomes a key, and starts a mapping if it stands
deeper than the present block. -/
def takeValue (l : Lexer) : Except Fault Lexer := do
  match l.keys.find? fun (depth, _) => depth = l.flowDepth with
  | some (_, k) =>
    let l := { l with keys := l.keys.filter fun (depth, _) => depth ≠ l.flowDepth }
    let l := { l with tokens := l.tokens.insertIdxIfInBounds k.token .key }
    let l := match if l.inFlow then none else l.indentTo? k.column with
      | some l => { l with tokens := l.tokens.insertIdxIfInBounds k.token .mappingStart }
      | none => l
    return (l.allowKey false).take 1 .value
  | none =>
    let l ← (← l.startBlock .mappingStart).dropKey
    return (l.allowKey !l.inFlow).take 1 .value

def takeBlockScalar (l : Lexer) (isFolded : Bool) : Except Fault Lexer := do
  let l ← (l.allowKey true).dropKey
  let (text, c) ← l.cursor.next.blockScalar isFolded l.indent
  return { l with cursor := c }.push (.scalar text false)

def takePlain (l : Lexer) : Except Fault Lexer := do
  let l ← l.saveKey
  let (text, broken, c) :=
    l.cursor.plainScalar l.inFlow (l.indent + 1) [] [] false (l.cursor.rest.length + 1)
  return { l with cursor := c, keyAllowed := broken }.push (.scalar text true)

/-- The end of all blocks, before a document mark, a directive or the end of the text. -/
def endBlocks (l : Lexer) : Except Fault Lexer := do
  let l ← (l.unwindTo (-1)).dropKey
  return l.allowKey false

def indicators : List Char :=
  "-?:,[]\x7b\x7d#&*!|>'\"%@`".toList

/-- Whether a plain scalar can start here. -/
def atPlain (l : Lexer) : Bool :=
  let x := l.cursor.peek
  (!isBlankOrEnd x && x ∉ indicators) ||
    (!isBlankOrEnd (l.cursor.peekAt 1) && (x = '-' || (!l.inFlow && (x = '?' || x = ':'))))

/-- Adds the token at the cursor, which stands on no blank. -/
def takeToken (l : Lexer) : Except Fault Lexer :=
  let c := l.cursor
  let beforeBlank := isBlankOrEnd (c.peekAt 1)
  match c.peek with
  | '%' =>
    if c.column = 0 then do
      let l ← l.endBlocks
      let (d, c) ← l.cursor.directive
      return { l with cursor := c }.push (.directive d)
    else .error .malformed
  | '[' => l.openFlow .flowSequenceStart
  | '\x7b' => l.openFlow .flowMappingStart
  | ']' => l.closeFlow .flowSequenceEnd
  | '\x7d' => l.closeFlow .flowMappingEnd
  | ',' => do return ((← l.dropKey).allowKey true).take 1 .flowEntry
  | '*' => l.takeKeyLike fun c => c.anchorName.map fun (name, c) => (.alias name, c)
  | '&' => l.takeKeyLike fun c => c.anchorName.map fun (name, c) => (.anchor name, c)
  | '!' => l.takeKeyLike Cursor.tag
  | '\'' => l.takeKeyLike fun c =>
    (c.next.quotedScalar false [] (c.rest.length + 1)).map fun (text, c) =>
      (.scalar text false, c)
  | '"' => l.takeKeyLike fun c =>
    (c.next.quotedScalar true [] (c.rest.length + 1)).map fun (text, c) =>
      (.scalar text false, c)
  | x =>
    if x = '-' && c.column = 0 && c.atDocumentMark then do
      return (← l.endBlocks).take 3 .documentStart
    else if x = '.' && c.column = 0 && c.atDocumentMark then do
      return (← l.endBlocks).take 3 .documentEnd
    else if x = '-' && beforeBlank then l.takeEntry
    else if x = '?' && (l.inFlow || beforeBlank) then l.takeComplexKey
    else if x = ':' && (l.inFlow || beforeBlank) then l.takeValue
    else if x = '|' && !l.inFlow then l.takeBlockScalar false
    else if x = '>' && !l.inFlow then l.takeBlockScalar true
    else if l.atPlain then l.takePlain
    else .error .malformed

/-- Takes tokens up to the end of the text, or up to a fault. -/
def run (l : Lexer) : Nat → Lexer × Option Fault
  | 0 => (l, some .malformed)
  | fuel + 1 =>
    let l := l.skipBlanks (l.cursor.rest.length + 1)
    match l.dropStaleKeys with
    | .error fault => (l, some fault)
    | .ok l =>
      let l := l.unwindTo l.cursor.column
      if l.cursor.rest.isEmpty then
        match l.endBlocks with
        | .error fault => (l, some fault)
        | .ok l => (l.push .streamEnd, none)
      else match l.takeToken with
        | .error fault => (l, some fault)
        | .ok l => l.run fuel

end Lexer

/-- The tokens of a text, and the fault that ends them early. A byte order mark at the head of the
text is passed. -/
def tokenize (text : List Char) : List Token × Option Fault :=
  let start := Cursor.start text
  let start := if start.peek = '\ufeff' then start.next else start
  let (l, fault?) := Lexer.run { cursor := start } (text.length + 2)
  (l.tokens.toList, fault?)

end SymbolExport.Yaml
