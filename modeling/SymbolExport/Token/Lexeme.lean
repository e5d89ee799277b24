import SymbolExport.Text.Word

/-!
The lexeme at the head of the rest of a line. Each function tells how many characters its kind of
lexeme takes there, if it takes any.
-/
namespace SymbolExport

open SymbolExport.Text

def isDecimal (c : Char) : Bool :=
  '0' ≤ c && c ≤ '9'

/-- Digits of a class, each after the first behind at most one underscore. -/
def digitRunTail (isDigit : Char → Bool) : List Char → Nat
  | '_' :: d :: rest => if isDigit d then digitRunTail isDigit rest + 2 else 0
  | d :: rest => if isDigit d then digitRunTail isDigit rest + 1 else 0
  | [] => 0

def digitRun (isDigit : Char → Bool) : List Char → Nat
  | d :: rest => if isDigit d then digitRunTail isDigit rest + 1 else 0
  | [] => 0

/-- An exponent: its mark, a sign, and digits. -/
def exponentLength (cs : List Char) : Nat :=
  match cs with
  | e :: rest =>
    if e = 'e' || e = 'E' then
      let sign := match rest with
        | '+' :: _ | '-' :: _ => 1
        | _ => 0
      match digitRun isDecimal (rest.drop sign) with
      | 0 => 0
      | n => n + sign + 1
    else 0
  | [] => 0

/-- Digits with a point among, before or behind them, or with an exponent. -/
def floatLength (cs : List Char) : Nat :=
  let whole := digitRun isDecimal cs
  match cs.drop whole with
  | '.' :: rest =>
    let fraction := digitRun isDecimal rest
    if whole = 0 && fraction = 0 then 0
    else whole + 1 + fraction + exponentLength (rest.drop fraction)
  | rest =>
    match whole, exponentLength rest with
    | 0, _ | _, 0 => 0
    | whole, exponent => whole + exponent

def hasImaginaryMark (cs : List Char) : Bool :=
  match cs with
  | c :: _ => c = 'j' || c = 'J'
  | [] => false

def imaginaryLength (cs : List Char) : Nat :=
  let whole := digitRun isDecimal cs
  let float := floatLength cs
  if whole > 0 && hasImaginaryMark (cs.drop whole) then whole + 1
  else if float > 0 && hasImaginaryMark (cs.drop float) then float + 1
  else 0

/-- The digits behind a base mark, the first of them behind at most one underscore. -/
def markedDigits (isDigit : Char → Bool) (cs : List Char) : Nat :=
  match digitRunTail isDigit cs with
  | 0 => 0
  | n => n + 2

def isHexDigit (c : Char) : Bool :=
  isDecimal c || ('a' ≤ c && c ≤ 'f') || ('A' ≤ c && c ≤ 'F')

/-- An integer in base 16, 2, 8 or 10. A decimal one that starts with zero has only zeros. -/
def integerLength (cs : List Char) : Nat :=
  let marked := match cs with
    | '0' :: mark :: rest =>
      if mark = 'x' || mark = 'X' then markedDigits isHexDigit rest
      else if mark = 'b' || mark = 'B' then markedDigits (fun c => c = '0' || c = '1') rest
      else if mark = 'o' || mark = 'O' then markedDigits (fun c => '0' ≤ c && c ≤ '7') rest
      else 0
    | _ => 0
  if marked > 0 then marked
  else match cs with
    | '0' :: _ => digitRun (· = '0') cs
    | _ => digitRun isDecimal cs

def numberLength (cs : List Char) : Nat :=
  let imaginary := imaginaryLength cs
  let float := floatLength cs
  if imaginary > 0 then imaginary
  else if float > 0 then float
  else integerLength cs

def operators3 : List (List Char) :=
  ["**=", "//=", ">>=", "<<=", "..."].map String.toList

def operators2 : List (List Char) :=
  ["!=", "%=", "&=", "**", "*=", "+=", "-=", "->", "//", "/=", ":=", "<<", "<=", "==", ">=", ">>",
   "@=", "^=", "|="].map String.toList

def operators1 : List Char :=
  "%&()*+,-./:;<=>@[]^\x7b|\x7d~".toList

/-- The longest operator. -/
def operatorLength (cs : List Char) : Nat :=
  if cs.take 3 ∈ operators3 then 3
  else if cs.take 2 ∈ operators2 then 2
  else match cs with
    | c :: _ => if c ∈ operators1 then 1 else 0
    | [] => 0

def isQuote (c : Char) : Bool :=
  c = '\'' || c = '"'

/-- The marks that may stand before a string, in lower case. -/
def stringMarks : List (List Char) :=
  ["", "b", "r", "u", "f", "br", "rb", "fr", "rf"].map String.toList

/-- The length of the mark before a string and the quote that opens it. -/
def stringStart? (cs : List Char) : Option (Nat × Char) :=
  let mark := (cs.take 3).takeWhile fun c => !isQuote c
  match cs.drop mark.length with
  | q :: _ =>
    if isQuote q && mark.map Char.toLower ∈ stringMarks then some (mark.length, q) else none
  | [] => none

/-- How a string that opens in a line goes on. -/
inductive StringEnd
  | closed (length : Nat)
  | goesOn
  | none
  deriving DecidableEq

/-- What follows the opening quote of a string of one line, which ends at the first quote without a
backslash before it. A backslash at the end of the line lets it go on. -/
def stringEnd (quote : Char) : List Char → StringEnd
  | '\\' :: '\n' :: _ => .goesOn
  | '\\' :: '\r' :: '\n' :: _ => .goesOn
  | '\\' :: _ :: rest => more 2 (stringEnd quote rest)
  | c :: rest =>
    if c = quote then .closed 1
    else if c = '\n' || c = '\\' then .none
    else more 1 (stringEnd quote rest)
  | [] => .none
where
  more (n : Nat) : StringEnd → StringEnd
    | .closed length => .closed (length + n)
    | other => other

/-- The length up to and with the closing quote of a string that was opened in an earlier line. -/
def closingLength? (quote : Char) : List Char → Option Nat
  | '\\' :: c :: rest => if c = '\n' then none else (closingLength? quote rest).map (· + 2)
  | c :: rest =>
    if c = quote then some 1
    else if c = '\\' then none
    else (closingLength? quote rest).map (· + 1)
  | [] => none

/-- The length up to and with the three closing quotes. -/
def tripleClosingLength? (quote : Char) : List Char → Option Nat
  | '\\' :: c :: rest => if c = '\n' then none else (tripleClosingLength? quote rest).map (· + 2)
  | c :: rest =>
    if c = '\\' then none
    else if c = quote && [quote, quote].isPrefixOf rest then some 3
    else (tripleClosingLength? quote rest).map (· + 1)
  | [] => none

/-- What stands at the head of the rest of a line; the numbers are lengths. -/
inductive Lexeme
  | continuation
  | comment (length : Nat)
  | tripleQuote (length : Nat) (quote : Char)
  | number (length : Nat)
  | lineEnd (length : Nat)
  | operator (length : Nat)
  | string (length : Nat)
  | openString (quote : Char)
  | word (length : Nat)
  | unknown
  deriving DecidableEq

/-- Words, operators and strings; what opens no string of one line may still be a word. -/
def stringOrWord (cs : List Char) : Lexeme :=
  let word := (cs.takeWhile isWordChar).length
  let wordOr := if word > 0 then Lexeme.word word else .unknown
  match stringStart? cs with
  | some (mark, quote) =>
    match stringEnd quote (cs.drop (mark + 1)) with
    | .closed length => .string (mark + 1 + length)
    | .goesOn => .openString quote
    | .none => wordOr
  | none => wordOr

def tripleQuote? (cs : List Char) : Option Lexeme :=
  match stringStart? cs with
  | some (mark, quote) =>
    if [quote, quote].isPrefixOf (cs.drop (mark + 1)) then some (.tripleQuote (mark + 3) quote)
    else none
  | none => none

def lexeme (cs : List Char) : Lexeme :=
  match cs with
  | '\\' :: '\n' :: _ | '\\' :: '\r' :: '\n' :: _ => .continuation
  | '\n' :: _ => .lineEnd 1
  | '\r' :: '\n' :: _ => .lineEnd 2
  | '#' :: _ => .comment (cs.takeWhile fun c => c ≠ '\r' ∧ c ≠ '\n').length
  | _ =>
    match tripleQuote? cs with
    | some triple => triple
    | none =>
      let number := numberLength cs
      let operator := operatorLength cs
      if number > 0 then .number number
      else if operator > 0 then .operator operator
      else stringOrWord cs

end SymbolExport
