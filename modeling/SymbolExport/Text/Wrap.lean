import SymbolExport.Text.Blank
import SymbolExport.Text.Digit
import SymbolExport.Text.Word

/-!
Lines of limited width. A text is cut into chunks: words, the spacing between them, the parts of
hyphenated words, and dashes. A chunk is broken only if no line can hold it.
-/
namespace SymbolExport.Text

def isSpacing (c : Char) : Bool :=
  c ∈ [' ', '\t', '\n', '\r', '\x0b', '\x0c']

def isLetter (c : Char) : Bool :=
  isWordChar c && (digitValue? c).isNone

/-- Characters within words: word characters and the marks that go with them. -/
def isWordPart (c : Char) : Bool :=
  isWordChar c || c ∈ ['!', '"', '\'', '&', '.', ',', '?']

inductive ChunkKind
  | spacing
  | dash
  | word
  deriving DecidableEq, Repr

/-- Two or more hyphens before a word. -/
def startsDash (cs : List Char) : Bool :=
  let hyphens := cs.takeWhile (· = '-')
  2 ≤ hyphens.length && (cs.drop hyphens.length).head?.any isWordChar

/-- Whether a word may be divided behind a hyphen: two letters, or two with a hyphen between them,
must stand on both sides. What comes before is given backwards. -/
def dividesWord (before rest : List Char) : Bool :=
  let isBehindPart := match before with
    | '-' :: b :: '-' :: a :: _ => isLetter b && isLetter a
    | '-' :: b :: a :: _ => isLetter b && isLetter a
    | _ => false
  let isBeforePart := match rest with
    | c :: '-' :: d :: _ => isLetter c && isLetter d
    | c :: d :: _ => isLetter c && isLetter d
    | _ => false
  isBehindPart && isBeforePart

/-- Whether a chunk of some length ends between two characters. -/
def ChunkKind.endsBetween (kind : ChunkKind) (length : Nat) (before rest : List Char) : Bool :=
  match kind with
  | .spacing => !rest.head?.any isSpacing
  | .dash => rest.head? ≠ some '-'
  | .word =>
    rest.head?.any isSpacing ||
      (before.head?.any isWordPart && startsDash rest) ||
      (2 ≤ length && dividesWord before rest)

/-- The kind of the chunk that starts between two characters. -/
def ChunkKind.startingBetween (before rest : List Char) : ChunkKind :=
  if rest.head?.any isSpacing then .spacing
  else if before.head?.any isWordPart && startsDash rest then .dash
  else .word

/-- Cuts the rest of a text into chunks. `before` is what comes before it, backwards, and the last
chunk of that is still open. -/
def chunksFrom (kind : ChunkKind) (chunk before : List Char) : List Char → List (List Char)
  | [] => [chunk.reverse]
  | c :: rest =>
    if kind.endsBetween chunk.length before (c :: rest) then
      chunk.reverse ::
        chunksFrom (.startingBetween before (c :: rest)) [c] (c :: before) rest
    else chunksFrom kind (c :: chunk) (c :: before) rest

def chunks : List Char → List (List Char)
  | [] => []
  | c :: rest => chunksFrom (.startingBetween [] (c :: rest)) [c] [c] rest

/-- The chunks that fit into a line, and the others. -/
def fillLine (room : Nat) : List (List Char) → List (List Char) × List (List Char)
  | [] => ([], [])
  | chunk :: rest =>
    if chunk.length ≤ room then
      let (line, rest) := fillLine (room - chunk.length) rest
      (chunk :: line, rest)
    else ([], chunk :: rest)

/-- The part of a wide chunk that fills a line: up to the last hyphen in it, if that is not among
the first. -/
def cutChunk (room : Nat) (chunk : List Char) : List Char × List Char :=
  let head := chunk.take room
  let tail := head.reverse.takeWhile (· ≠ '-')
  let upTo := head.length - tail.length
  if 2 ≤ upTo && (head.take (upTo - 1)).any (· ≠ '-') then chunk.splitAt upTo
  else chunk.splitAt room

/-- One line, without spacing at its end, and the chunks that are left. -/
def takeLine (width : Nat) (chunks : List (List Char)) : List (List Char) × List (List Char) :=
  let (line, rest) := fillLine width chunks
  let (line, rest) := match rest with
    | chunk :: more =>
      if chunk.length > width then
        let (part, left) := cutChunk (width - line.flatten.length) chunk
        (line ++ [part], left :: more)
      else (line, rest)
    | [] => (line, rest)
  (if line.getLast?.any allBlank then line.dropLast else line, rest)

/-- Lines behind a first one start without spacing. -/
def wrapChunks (width : Nat) (isFirst : Bool) (chunks : List (List Char)) :
    Nat → List (List Char)
  | 0 => []
  | fuel + 1 =>
    let chunks := if !isFirst && chunks.head?.any allBlank then chunks.tail else chunks
    if chunks.isEmpty then []
    else
      let (line, rest) := takeLine width chunks
      if line.isEmpty then wrapChunks width isFirst rest fuel
      else line.flatten :: wrapChunks width false rest fuel

/-- The lines of a text, none wider than `width`, which is not zero. -/
def wrap (width : Nat) (cs : List Char) : List (List Char) :=
  wrapChunks width true (chunks cs) (cs.length + 1)

/-- Reads every run of spacing as one space, and drops blanks at both ends. -/
def squeeze (cs : List Char) : List Char :=
  strip (go false cs)
where
  go (isBehindSpacing : Bool) : List Char → List Char
    | [] => []
    | c :: rest =>
      if isSpacing c then if isBehindSpacing then go true rest else ' ' :: go true rest
      else c :: go false rest

end SymbolExport.Text
