import SymbolExport.Number.Reading
import SymbolExport.Yaml.Cursor

/-! The texts of scalars: plain, quoted, and in blocks. -/
namespace SymbolExport.Yaml

namespace Cursor

/-- Passes blank lines, up to the mark of a document if one starts a line; the answer tells whether
one does. -/
def plainBreaks (c : Cursor) (breaks : List Char) : Nat → Option (List Char) × Cursor
  | 0 => (some breaks, c)
  | fuel + 1 =>
    if c.peek = ' ' then c.next.plainBreaks breaks fuel
    else if isBreak c.peek then
      let (b, c) := c.lineBreak
      if c.atDocumentMark then (none, c) else c.plainBreaks (breaks ++ b) fuel
    else (some breaks, c)

/-- What line breaks between words of a scalar stand for: one is a space, further ones stay. -/
def foldBreaks (first breaks : List Char) : List Char :=
  if first ≠ ['\n'] then first ++ breaks
  else if breaks.isEmpty then [' ']
  else breaks

/-- The blanks between words of a plain scalar, and whether a line break is among them. -/
def plainSpaces (c : Cursor) : List Char × Bool × Cursor :=
  let (blanks, c) := c.span (· = ' ')
  if isBreak c.peek then
    let (first, c) := c.lineBreak
    if c.atDocumentMark then ([], true, c)
    else match c.plainBreaks [] (c.rest.length + 1) with
      | (none, c) => ([], true, c)
      | (some breaks, c) => (foldBreaks first breaks, true, c)
  else (blanks, false, c)

/-- Whether a plain scalar ends before a character, given the one behind it. -/
def endsPlain (inFlow : Bool) (x next : Char) : Bool :=
  isBlankOrEnd x ||
    (x = ':' && (isBlankOrEnd next || (inFlow && next ∈ [',', '[', ']', '\x7b', '\x7d']))) ||
    (inFlow && x ∈ [',', '?', '[', ']', '\x7b', '\x7d'])

/-- The characters of a plain scalar up to the next blank or indicator. -/
def plainWord (inFlow : Bool) : List Char → List Char
  | [] => []
  | x :: rest =>
    if endsPlain inFlow x (rest.headD '\x00') then [] else x :: plainWord inFlow rest

/-- A plain scalar whose lines are indented by at least `indent`, and whether a line break follows
its last word. -/
def plainScalar (c : Cursor) (inFlow : Bool) (indent : Int) (text spaces : List Char)
    (broken : Bool) : Nat → List Char × Bool × Cursor
  | 0 => (text, broken, c)
  | fuel + 1 =>
    let word := if c.peek = '#' then [] else plainWord inFlow c.rest
    if word.isEmpty then (text, broken, c)
    else
      let (between, brokenHere, c) := (c.advance word.length).plainSpaces
      let text := text ++ spaces ++ word
      if between.isEmpty || c.peek = '#' || (!inFlow && c.column < indent) then
        (text, brokenHere, c)
      else c.plainScalar inFlow indent text between brokenHere fuel

/-- Blank lines inside of quotes; no document may start or end there. -/
def quotedBreaks (c : Cursor) (breaks : List Char) : Nat → Except Fault (List Char × Cursor)
  | 0 => .error .malformed
  | fuel + 1 =>
    if c.atDocumentMark then .error .malformed
    else
      let c := c.skip fun x => x = ' ' || x = '\t'
      if isBreak c.peek then
        let (b, c) := c.lineBreak
        c.quotedBreaks (breaks ++ b) fuel
      else .ok (breaks, c)

/-- Blanks and line breaks inside of quotes. -/
def quotedSpaces (c : Cursor) : Except Fault (List Char × Cursor) :=
  let (blanks, c) := c.span fun x => x = ' ' || x = '\t'
  if c.peek = '\x00' then .error .malformed
  else if isBreak c.peek then
    let (first, c) := c.lineBreak
    (c.quotedBreaks [] (c.rest.length + 1)).map fun (breaks, c) => (foldBreaks first breaks, c)
  else .ok (blanks, c)

/-- What the character behind a backslash stands for. -/
def escapes : List (Char × Char) :=
  [('0', '\x00'), ('a', '\x07'), ('b', '\x08'), ('t', '\t'), ('\t', '\t'), ('n', '\n'),
   ('v', '\x0b'), ('f', '\x0c'), ('r', '\r'), ('e', '\x1b'), (' ', ' '), ('"', '"'), ('\\', '\\'),
   ('/', '/'), ('N', '\x85'), ('_', '\xa0'), ('L', '\u2028'), ('P', '\u2029')]

/-- The number of hexadecimal digits behind a backslash and this letter. -/
def codeLength? : Char → Option Nat
  | 'x' => some 2
  | 'u' => some 4
  | 'U' => some 8
  | _ => none

def hexValue (cs : List Char) : Nat :=
  (Number.readNat? 16 cs).getD 0

/-- No code beyond this is looked up at all. -/
def maxCode : Nat := 0x7fffffff

/-- The codes of the halves of characters. -/
def isHalfCode (code : Nat) : Bool :=
  0xd800 ≤ code && code < 0xe000

/-- A character given by its code point. -/
def codeEscape (c : Cursor) (length : Nat) : Except Fault (List Char × Cursor) :=
  let digits := c.rest.take length
  if digits.length = length && digits.all isHexChar then
    let code := hexValue digits
    if code > maxCode then
      .error (.other "OverflowError" "Python int too large to convert to C int")
    else if code > 0x10ffff then .error .badNumber
    else if isHalfCode code then .error .halfCharacter
    else .ok ([Char.ofNat code], c.advance length)
  else .error .malformed

/-- What a backslash and the characters behind it stand for. -/
def escape (c : Cursor) : Except Fault (List Char × Cursor) :=
  match escapes.find? fun e => e.1 = c.peek, codeLength? c.peek with
  | some (_, x), _ => .ok ([x], c.next)
  | none, some length => c.next.codeEscape length
  | none, none =>
    if isBreak c.peek then c.lineBreak.2.quotedBreaks [] (c.rest.length + 1)
    else .error .malformed

/-- The inside of quotes, up to and with the closing one. -/
def quotedScalar (c : Cursor) (isDouble : Bool) (text : List Char) :
    Nat → Except Fault (List Char × Cursor)
  | 0 => .error .malformed
  | fuel + 1 =>
    let x := c.peek
    if x = '\'' && !isDouble then
      if c.peekAt 1 = '\'' then (c.advance 2).quotedScalar isDouble (text ++ ['\'']) fuel
      else .ok (text, c.next)
    else if x = '"' && isDouble then .ok (text, c.next)
    else if x = '\\' && isDouble then do
      let (part, c) ← c.next.escape
      c.quotedScalar isDouble (text ++ part) fuel
    else if isBlankOrEnd x then do
      let (part, c) ← c.quotedSpaces
      c.quotedScalar isDouble (text ++ part) fuel
    else c.next.quotedScalar isDouble (text ++ [x]) fuel

/-- What happens to the line breaks at the end of a block scalar. -/
inductive Chomping
  | strip
  | clip
  | keep
  deriving DecidableEq

def chomping? : Char → Option Chomping
  | '+' => some .keep
  | '-' => some .strip
  | _ => none

def increment? (x : Char) : Option Nat :=
  if x.isDigit then some (x.toNat - '0'.toNat) else none

/-- The header of a block scalar: its chomping and its indentation, in either order. -/
def blockHeader (c : Cursor) : Except Fault (Chomping × Option Nat × Cursor) := do
  let (chomping?₁, c) := match chomping? c.peek with
    | some x => (some x, c.next)
    | none => (none, c)
  let (increment, c) := match increment? c.peek with
    | some n => (some n, c.next)
    | none => (none, c)
  let (chomping, c) := match chomping?₁, increment, chomping? c.peek with
    | some x, _, _ => (x, c)
    | none, some _, some x => (x, c.next)
    | none, _, _ => (.clip, c)
  if increment = some 0 || !isSpaceOrEnd c.peek then throw .malformed
  return (chomping, increment, c)

/-- The blank lines before a block scalar, and the greatest indentation among them and of its first
line. -/
def blockStart (c : Cursor) (breaks : List Char) (width : Nat) :
    Nat → List Char × Nat × Cursor
  | 0 => (breaks, width, c)
  | fuel + 1 =>
    if c.peek = ' ' then
      let c := c.next
      c.blockStart breaks (max width c.column) fuel
    else if isBreak c.peek then
      let (b, c) := c.lineBreak
      c.blockStart (breaks ++ b) width fuel
    else (breaks, width, c)

/-- Passes spaces up to a column. -/
def indentTo (c : Cursor) (indent : Nat) : Nat → Cursor
  | 0 => c
  | fuel + 1 =>
    if c.column < indent && c.peek = ' ' then c.next.indentTo indent fuel else c

/-- Blank lines inside of a block scalar, and the indentation of the line behind them. -/
def blockBreaks (c : Cursor) (indent : Nat) (breaks : List Char) : Nat → List Char × Cursor
  | 0 => (breaks, c)
  | fuel + 1 =>
    let c := c.indentTo indent indent
    if isBreak c.peek then
      let (b, c) := c.lineBreak
      c.blockBreaks indent (breaks ++ b) fuel
    else (breaks, c)

/-- The lines of a block scalar. Folding joins two lines by a space unless one of them starts with a
blank. The answer has the last line break and the blank lines behind it apart. -/
def blockLines (c : Cursor) (isFolded : Bool) (indent : Nat) (text breaks : List Char) :
    Nat → List Char × List Char × List Char × Cursor
  | 0 => (text, [], breaks, c)
  | fuel + 1 =>
    if c.column = indent && c.peek ≠ '\x00' then
      let leading := c.peek ≠ ' ' && c.peek ≠ '\t'
      let (line, c) := c.span fun x => !isBreakOrEnd x
      let text := text ++ breaks ++ line
      let (last, c) := c.lineBreak
      let (breaks, c) := c.blockBreaks indent [] (c.rest.length + 1)
      if c.column = indent && c.peek ≠ '\x00' then
        let join :=
          if isFolded && last = ['\n'] && leading && c.peek ≠ ' ' && c.peek ≠ '\t' then
            if breaks.isEmpty then [' '] else []
          else last
        c.blockLines isFolded indent (text ++ join) breaks fuel
      else (text, last, breaks, c)
    else (text, [], breaks, c)

/-- A block scalar behind its indicator, in a block of the given indentation. -/
def blockScalar (c : Cursor) (isFolded : Bool) (outer : Int) :
    Except Fault (List Char × Cursor) := do
  let (chomping, increment?, c) ← c.blockHeader
  let c ← c.endLine?
  let least := (max (outer + 1) 1).toNat
  let fuel := c.rest.length + 1
  let (indent, breaks, c) := match increment? with
    | some n =>
      let indent := least + n - 1
      let (breaks, c) := c.blockBreaks indent [] fuel
      (indent, breaks, c)
    | none =>
      let (breaks, width, c) := c.blockStart [] 0 fuel
      (max least width, breaks, c)
  let (text, last, breaks, c) := c.blockLines isFolded indent [] breaks fuel
  let text := if chomping = .strip then text else text ++ last
  return (if chomping = .keep then text ++ breaks else text, c)

end Cursor

end SymbolExport.Yaml
