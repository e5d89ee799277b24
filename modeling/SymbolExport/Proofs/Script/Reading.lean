import Mathlib
import SymbolExport.Script.Module
import SymbolExport.Text.Identifier

/-!
Reading a script module back: statements one after the other, each of them a name and a literal. A
literal is what the common data format of scripts allows, and the words for the numbers that are not
finite.
-/
namespace SymbolExport

open SymbolExport.Text

/-- What a literal stands for. A number that is not written as an integer stands for its text. -/
inductive Datum
  | null
  | bool (b : Bool)
  | int (i : Int)
  | float (text : List Char)
  | str (s : String)
  | array (items : List Datum)
  | object (entries : List (String × Datum))
  deriving Repr, Inhabited

namespace Reading

/-- Blanks between the parts of a literal. -/
def isBlank (c : Char) : Bool :=
  c = ' ' || c = '\n' || c = '\r' || c = '\t'

def skipBlanks (cs : List Char) : List Char :=
  cs.dropWhile isBlank

def hexValue? (c : Char) : Option Nat :=
  if '0' ≤ c ∧ c ≤ '9' then some (c.toNat - '0'.toNat)
  else if 'a' ≤ c ∧ c ≤ 'f' then some (c.toNat - 'a'.toNat + 10)
  else if 'A' ≤ c ∧ c ≤ 'F' then some (c.toNat - 'A'.toNat + 10)
  else none

def hexNumber? (cs : List Char) : Option Nat :=
  cs.foldlM (fun n c => (hexValue? c).map (16 * n + ·)) 0

/-- A script's text is made of units of 16 bits; two of them stand for a character beyond the first
plane. -/
def unitsOf (c : Char) : List Nat :=
  if c.toNat < 0x10000 then [c.toNat]
  else
    let n := c.toNat - 0x10000
    [0xd800 + n / 0x400, 0xdc00 + n % 0x400]

/-- The characters of units; no unit of a pair may stand alone. -/
def decodeUnits : List Nat → Option (List Char)
  | [] => some []
  | u :: rest =>
    if 0xd800 ≤ u ∧ u < 0xdc00 then
      match rest with
      | [] => none
      | v :: more =>
        if 0xdc00 ≤ v ∧ v < 0xe000 then
          let n := 0x10000 + (u - 0xd800) * 0x400 + (v - 0xdc00)
          (decodeUnits more).map (Char.ofNat n :: ·)
        else none
    else if 0xdc00 ≤ u ∧ u < 0xe000 then none
    else (decodeUnits rest).map (Char.ofNat u :: ·)

/-- What a character stands for behind a backslash. -/
def shortEscape? : Char → Option Char
  | '"' => some '"'
  | '\\' => some '\\'
  | '/' => some '/'
  | 'b' => some '\x08'
  | 'f' => some '\x0c'
  | 'n' => some '\n'
  | 'r' => some '\r'
  | 't' => some '\t'
  | _ => none

/-- The units of a text up to its closing quote, and what follows it. -/
def readUnits : List Char → Option (List Nat × List Char)
  | [] => none
  | '"' :: rest => some ([], rest)
  | '\\' :: 'u' :: a :: b :: c :: d :: rest => do
    let u ← hexNumber? [a, b, c, d]
    let (units, rest) ← readUnits rest
    return (u :: units, rest)
  | '\\' :: e :: rest => do
    let c ← shortEscape? e
    let (units, rest) ← readUnits rest
    return (c.toNat :: units, rest)
  | c :: rest =>
    if c < ' ' ∨ c = '\\' then none
    else do
      let (units, rest) ← readUnits rest
      return (unitsOf c ++ units, rest)

def readText (cs : List Char) : Option (String × List Char) := do
  let (units, rest) ← readUnits cs
  return (String.ofList (← decodeUnits units), rest)

def isDigits (cs : List Char) : Bool :=
  !cs.isEmpty && cs.all Char.isDigit

/-- Digits that do not start with a zero, unless it is the only one. -/
def isWhole (cs : List Char) : Bool :=
  isDigits cs && (cs.head? != some '0' || cs.length = 1)

/-- An exponent with an optional sign, or nothing. -/
def isExponent : List Char → Bool
  | [] => true
  | e :: '+' :: digits | e :: '-' :: digits => (e = 'e' || e = 'E') && isDigits digits
  | e :: digits => (e = 'e' || e = 'E') && isDigits digits

/-- What may follow the whole part of a number: a fraction and an exponent. -/
def isNumberTail : List Char → Bool
  | '.' :: rest =>
    isDigits (rest.takeWhile Char.isDigit) && isExponent (rest.dropWhile Char.isDigit)
  | rest => isExponent rest

def number? (cs : List Char) : Option Datum :=
  let isNegative := cs.head? = some '-'
  let magnitude := if isNegative then cs.tail else cs
  let whole := magnitude.takeWhile Char.isDigit
  let tail := magnitude.dropWhile Char.isDigit
  if !isWhole whole then none
  else if tail = [] then
    let n := Nat.ofDigitChars 10 whole 0
    some (.int (if isNegative then -n else n))
  else if isNumberTail tail then some (.float cs)
  else none

/-- The words for the numbers that are not finite. -/
def numberWords : List (List Char) :=
  ["NaN", "Infinity", "-Infinity"].map String.toList

/-- What a word or a number stands for. -/
def atom? (cs : List Char) : Option Datum :=
  if cs = "null".toList then some .null
  else if cs = "true".toList then some (.bool true)
  else if cs = "false".toList then some (.bool false)
  else if numberWords.contains cs then some (.float cs)
  else number? cs

def isAtomChar (c : Char) : Bool :=
  c.isAlphanum || c = '-' || c = '+' || c = '.'

/-- One part after the other, with commas between them, up to a closing bracket. Reading ends since
every comma leaves less than there was. -/
def readParts {α : Type} (part : List Char → Option (α × List Char)) (close : Char)
    (cs : List Char) : Option (List α × List Char) :=
  match part (skipBlanks cs) with
  | none => none
  | some (a, rest) =>
    match skipBlanks rest with
    | [] => none
    | c :: more =>
      if c = close then some ([a], more)
      else if c = ',' ∧ more.length < cs.length then
        (readParts part close more).map fun (as, rest) => (a :: as, rest)
      else none
termination_by cs.length
decreasing_by
  rename_i h
  exact h.2

def readBracket {α : Type} (part : List Char → Option (α × List Char)) (close : Char)
    (cs : List Char) : Option (List α × List Char) :=
  match skipBlanks cs with
  | [] => none
  | c :: rest => if c = close then some ([], rest) else readParts part close cs

/-- A name and a value, with a colon between them. -/
def readEntry (value : List Char → Option (Datum × List Char)) :
    List Char → Option ((String × Datum) × List Char)
  | '"' :: rest => do
    let (name, rest) ← readText rest
    match skipBlanks rest with
    | ':' :: rest => do
      let (d, rest) ← value (skipBlanks rest)
      return ((name, d), rest)
    | _ => none
  | _ => none

/-- A value whose brackets are nested less deep than a bound. -/
def readValue : Nat → List Char → Option (Datum × List Char)
  | 0, _ => none
  | bound + 1, cs =>
    match cs with
    | '"' :: rest => (readText rest).map fun (s, rest) => (.str s, rest)
    | '[' :: rest =>
      (readBracket (readValue bound) ']' rest).map fun (items, rest) => (.array items, rest)
    | '\x7b' :: rest =>
      (readBracket (readEntry (readValue bound)) '\x7d' rest).map fun (entries, rest) =>
        (.object entries, rest)
    | cs => (atom? (cs.takeWhile isAtomChar)).map fun d => (d, cs.dropWhile isAtomChar)

/-- The characters of a name that a statement defines. -/
def isNameChar (c : Char) : Bool :=
  isIdentifierContinuation c || c = '$'

/-- A statement and the blank line behind it. -/
def readStatement (cs : List Char) : Option ((String × List (String × Datum)) × List Char) := do
  let cs ← "export const ".toList.isPrefixOf? cs
  let name := cs.takeWhile isNameChar
  let cs ← " = ".toList.isPrefixOf? (cs.dropWhile isNameChar)
  match readValue cs.length cs with
  | some (.object entries, rest) => do
    let rest ← ";\n\n".toList.isPrefixOf? rest
    return ((String.ofList name, entries), rest)
  | _ => none

def readModule (cs : List Char) : Option (List (String × List (String × Datum))) :=
  if cs.isEmpty then some []
  else match readStatement cs with
    | none => none
    | some (statement, rest) =>
      if rest.length < cs.length then (readModule rest).map (statement :: ·) else none
termination_by cs.length

/-- Characters of a class are read up to the first that is none. -/
theorem span_append {p : Char → Bool} {cs rest : List Char} (hcs : ∀ c ∈ cs, p c)
    (hrest : ∀ c ∈ rest.head?, p c = false) :
    (cs ++ rest).takeWhile p = cs ∧ (cs ++ rest).dropWhile p = rest := by
  rw [List.takeWhile_append_of_pos hcs, List.dropWhile_append_of_pos hcs]
  cases rest with
  | nil => simp
  | cons c more => simp [hrest c rfl]

theorem isPrefixOf?_append (cs rest : List Char) : cs.isPrefixOf? (cs ++ rest) = some rest := by
  induction cs with
  | nil => rfl
  | cons c more ih => simp [List.isPrefixOf?, ih]

end Reading

end SymbolExport
