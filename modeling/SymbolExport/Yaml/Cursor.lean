/-!
A place in a YAML text. The text holds no NUL character, which stands for its end, and its line ends
have no carriage returns.
-/
namespace SymbolExport.Yaml

/-- Why a text gives no document: it is no YAML, one of its scalars does not denote a value of its
type, an escape in it names half of a character, which no text here can hold, or its reader fails in
another way, as on collections that are nested too deep for it. -/
inductive Fault
  | malformed
  | badNumber
  | noNumeral
  | badTruth
  | badMoment
  | momentOfTable
  | halfCharacter
  | other (kind message : String)
  deriving DecidableEq, Repr

def Fault.message : Fault → String
  | malformed => "not a well-formed document"
  | badNumber => "not a number"
  | noNumeral => "string index out of range"
  | badTruth => "not a truth value"
  | badMoment => "not a date"
  | momentOfTable => "expected string or bytes-like object, got 'list'"
  | halfCharacter => "half of a character"
  | other _ message => message

structure Cursor where
  rest : List Char
  index : Nat
  line : Nat
  column : Nat

/-- Characters that a text may hold. -/
def isAllowed (c : Char) : Bool :=
  let n := c.toNat
  c = '\t' || c = '\n' || c = '\r' || (0x20 ≤ n && n ≤ 0x7e) || n = 0x85 ||
    (0xa0 ≤ n && n ≤ 0xfffd) || 0x10000 ≤ n

def isBreak (c : Char) : Bool :=
  c = '\n' || c = '\x85' || c = '\u2028' || c = '\u2029'

def isBreakOrEnd (c : Char) : Bool :=
  c = '\x00' || isBreak c

def isSpaceOrEnd (c : Char) : Bool :=
  c = ' ' || isBreakOrEnd c

def isBlankOrEnd (c : Char) : Bool :=
  c = '\t' || isSpaceOrEnd c

/-- Characters of anchors, directives and tag handles. -/
def isWordChar (c : Char) : Bool :=
  c.isAlphanum || c = '-' || c = '_'

def isHexChar (c : Char) : Bool :=
  c.isDigit || ('a' ≤ c && c ≤ 'f') || ('A' ≤ c && c ≤ 'F')

namespace Cursor

def start (text : List Char) : Cursor :=
  ⟨text, 0, 0, 0⟩

def peek (c : Cursor) : Char :=
  c.rest.headD '\x00'

def peekAt (c : Cursor) (n : Nat) : Char :=
  (c.rest.drop n).headD '\x00'

/-- Passes one character; a byte order mark has no width. -/
def next (c : Cursor) : Cursor :=
  match c.rest with
  | [] => c
  | x :: rest =>
    if isBreak x then ⟨rest, c.index + 1, c.line + 1, 0⟩
    else ⟨rest, c.index + 1, c.line, if x = '\ufeff' then c.column else c.column + 1⟩

def advance (c : Cursor) : Nat → Cursor
  | 0 => c
  | n + 1 => c.next.advance n

/-- The characters ahead that all satisfy a condition, and the place behind them. -/
def span (c : Cursor) (p : Char → Bool) : List Char × Cursor :=
  let taken := c.rest.takeWhile p
  (taken, c.advance taken.length)

def skip (c : Cursor) (p : Char → Bool) : Cursor :=
  (c.span p).2

/-- Passes a line break, if there is one. Those that end no paragraph read as line feeds. -/
def lineBreak (c : Cursor) : List Char × Cursor :=
  let x := c.peek
  if x = '\n' || x = '\x85' then (['\n'], c.next)
  else if isBreak x then ([x], c.next)
  else ([], c)

/-- Whether the line starts with the mark of a document's start or end. -/
def atDocumentMark (c : Cursor) : Bool :=
  let mark := c.rest.take 3
  (mark = ['-', '-', '-'] || mark = ['.', '.', '.']) && isBlankOrEnd (c.peekAt 3)

/-- Passes the blanks and the comment up to the end of a line, where nothing else may stand. -/
def endLine? (c : Cursor) : Except Fault Cursor :=
  let c := c.skip (· = ' ')
  let c := if c.peek = '#' then c.skip fun x => !isBreakOrEnd x else c
  if isBreakOrEnd c.peek then .ok c.lineBreak.2 else .error .malformed

end Cursor

end SymbolExport.Yaml
