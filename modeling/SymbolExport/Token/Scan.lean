import SymbolExport.Text.Blank
import SymbolExport.Text.Identifier
import SymbolExport.Text.Line
import SymbolExport.Token
import SymbolExport.Token.Lexeme

/-!
The tokens of a source, line by line. A statement starts at the head of a line unless a bracket or a
string is open or the line before ended in a backslash; there the indentation counts.
-/
namespace SymbolExport

open SymbolExport.Text

/-- A string that is open at the end of a line, and where it started. -/
structure OpenString where
  quote : Char
  isTriple : Bool
  line : Nat
  column : Nat
  text : List Char
  deriving DecidableEq, Repr

/-- How a line ends. -/
inductive LineEnding
  | plain
  | continued
  | inString (s : OpenString)

structure LineScan where
  tokens : List Token
  depth : Int
  ending : LineEnding

def LineScan.cons (token : Token) (scan : LineScan) : LineScan :=
  { scan with tokens := token :: scan.tokens }

/-- Spacing between tokens. -/
def isSpacing (c : Char) : Bool :=
  c = ' ' || c = '\x0c' || c = '\t'

/-- Brackets of the three kinds count alike. -/
def bracketStep : List Char → Int
  | ['('] | ['['] | ['\x7b'] => 1
  | [')'] | [']'] | ['\x7d'] => -1
  | _ => 0

/-- A word is a name if its first character can start an identifier. -/
def wordKind (c : Char) : TokenKind :=
  if isIdentifierStart c then .name else .operator

/-- The tokens of the rest of a line. Spacing before an unknown character is unknown itself. -/
def scanRest (line column : Nat) (depth : Int) : List Char → LineScan
  | [] => ⟨[], depth, .plain⟩
  | c :: more =>
    if isSpacing c then
      let ahead := more.dropWhile isSpacing
      let scan := scanRest line (column + 1) depth more
      if !ahead.isEmpty && lexeme ahead = .unknown then scan.cons ⟨.error, [c]⟩ else scan
    else
      let text (n : Nat) := (c :: more).take n
      let token (kind : TokenKind) (n : Nat) (depth : Int) :=
        (scanRest line (column + (n - 1 + 1)) depth (more.drop (n - 1))).cons ⟨kind, text n⟩
      match lexeme (c :: more) with
      | .continuation => ⟨[], depth, .continued⟩
      | .comment n => token .comment n depth
      | .number n => token .number n depth
      | .lineEnd n => token (if depth > 0 then .lineBreak else .newline) n depth
      | .operator n => token .operator n (depth + bracketStep (text n))
      | .string n => token .string n depth
      | .word n => token (wordKind c) n depth
      | .unknown => token .error 1 depth
      | .openString quote => ⟨[], depth, .inString ⟨quote, false, line, column, c :: more⟩⟩
      | .tripleQuote n quote =>
        match tripleClosingLength? quote ((c :: more).drop n) with
        | some length => token .string (n + length) depth
        | none => ⟨[], depth, .inString ⟨quote, true, line, column, c :: more⟩⟩
termination_by cs => cs.length
decreasing_by all_goals simp only [List.length_cons, List.length_drop]; omega

/-- What the lines so far have left open. The indentations are the open ones, the innermost first.
Once a string has gone on behind a backslash, `needsMark` demands a backslash of every line in which
an open string goes on, until one is closed. -/
structure Scanner where
  line : Nat
  depth : Int
  continued : Bool
  indents : List Nat
  openString? : Option OpenString
  needsMark : Bool
  endsOpen : Bool
  deriving DecidableEq, Repr

def Scanner.start : Scanner :=
  ⟨0, 0, false, [0], none, false, false⟩

/-- Whether a line calls for a line end that it does not have. -/
def lacksLineEnd (line : List Char) : Bool :=
  match line.getLast? with
  | some c => c ≠ '\n' && c ≠ '\r' && (strip line).head? != some '#'
  | none => false

/-- The column behind the indentation of a line, and what follows it. -/
def indentation (column : Nat) : List Char → Nat × List Char
  | ' ' :: rest => indentation (column + 1) rest
  | '\t' :: rest => indentation ((column / 8 + 1) * 8) rest
  | '\x0c' :: rest => indentation 0 rest
  | rest => (column, rest)

/-- Closes the indentations beyond the column, which must be one of the open ones. -/
def dedentTo? (column : Nat) : List Nat → Option (List Nat × Nat)
  | [] => none
  | indent :: outer =>
    if column < indent then (dedentTo? column outer).map fun (indents, n) => (indents, n + 1)
    else if column = indent then some (indent :: outer, 0)
    else none

namespace Scanner

/-- Goes on with a line from a column, when nothing is open that forbids it. -/
def takeRest (s : Scanner) (before : List Token) (column : Nat) (rest : List Char) :
    Scanner × List Token :=
  let scan := scanRest s.line column s.depth rest
  let next := match scan.ending with
    | .plain => { s with depth := scan.depth, continued := false, openString? := none }
    | .continued => { s with depth := scan.depth, continued := true, openString? := none }
    | .inString o =>
      { s with
        depth := scan.depth
        continued := false
        openString? := some o
        needsMark := s.needsMark || !o.isTriple }
  (next, before ++ scan.tokens)

/-- A line that starts a statement, or is blank or a comment. -/
def takeStatement (s : Scanner) (line : List Char) :
    Except TokenFault (Scanner × List Token) :=
  let (column, rest) := indentation 0 line
  let offset := line.length - rest.length
  match rest with
  | [] => .ok (s, [])
  | '#' :: _ =>
    let comment := (rest.reverse.dropWhile fun c => c = '\r' || c = '\n').reverse
    .ok ({ s with endsOpen := lacksLineEnd line },
      [⟨.comment, comment⟩, ⟨.lineBreak, rest.drop comment.length⟩])
  | '\r' :: _ | '\n' :: _ =>
    .ok ({ s with endsOpen := lacksLineEnd line }, [⟨.lineBreak, rest⟩])
  | _ =>
    let s := { s with endsOpen := lacksLineEnd line }
    if column > s.indents.headD 0 then
      .ok ({ s with indents := column :: s.indents }.takeRest [⟨.indent, line.take offset⟩]
        offset rest)
    else
      match dedentTo? column s.indents with
      | some (indents, n) =>
        .ok ({ s with indents := indents }.takeRest (List.replicate n ⟨.dedent, []⟩) offset rest)
      | none => .error (.badDedent s.line)

/-- A line in which a string is still open. -/
def takeInString (s : Scanner) (o : OpenString) (line : List Char) : Scanner × List Token :=
  let closing? := if o.isTriple then tripleClosingLength? o.quote line
    else closingLength? o.quote line
  let s := { s with endsOpen := lacksLineEnd line }
  match closing? with
  | some n =>
    { s with needsMark := false }.takeRest [⟨.string, o.text ++ line.take n⟩] n (line.drop n)
  | none =>
    let marked := "\\\n".toList.isSuffixOf line || "\\\r\n".toList.isSuffixOf line
    if s.needsMark && !marked then
      ({ s with openString? := none }, [⟨.error, o.text ++ line⟩])
    else ({ s with openString? := some { o with text := o.text ++ line } }, [])

def takeLine (s : Scanner) (line : List Char) : Except TokenFault (Scanner × List Token) :=
  let s := { s with line := s.line + 1 }
  match s.openString? with
  | some o => .ok (s.takeInString o line)
  | none =>
    if s.depth = 0 && !s.continued then s.takeStatement line
    else .ok ({ s with endsOpen := lacksLineEnd line }.takeRest [] 0 line)

def takeLines (s : Scanner) : List (List Char) → Except TokenFault (Scanner × List Token)
  | [] => .ok (s, [])
  | line :: rest => do
    let (next, tokens) ← s.takeLine line
    let (last, more) ← next.takeLines rest
    return (last, tokens ++ more)

/-- The tokens behind the last line, where nothing may be open. -/
def finish (s : Scanner) : Except TokenFault (List Token) :=
  match s.openString? with
  | some o => .error (.openString o.line o.column)
  | none =>
    if s.depth = 0 && !s.continued then
      .ok ((if s.endsOpen then [⟨.newline, []⟩] else []) ++
        List.replicate (s.indents.length - 1) ⟨.dedent, []⟩ ++ [⟨.endMarker, []⟩])
    else .error (.openStatement (s.line + 1))

end Scanner

def tokenize (source : List Char) : Except TokenFault (List Token) := do
  let (last, tokens) ← Scanner.start.takeLines (lines source)
  return tokens ++ (← last.finish)

end SymbolExport
