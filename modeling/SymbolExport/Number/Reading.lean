import SymbolExport.Number.Binary64
import SymbolExport.Text.Blank
import SymbolExport.Text.Digit

/-!
Reading numerals: blanks around them and single underscores between digits are allowed, and the
digits of every script count.
-/
namespace SymbolExport.Number

open SymbolExport.Text

/-- Blanks around a numeral; of ASCII only the spaces and line ends. -/
def isNumeralBlank (c : Char) : Bool :=
  if c.toNat < 127 then c = ' ' || ('\t' ≤ c && c ≤ '\r') else isBlank c

def stripNumeral (cs : List Char) : List Char :=
  ((cs.dropWhile isNumeralBlank).reverse.dropWhile isNumeralBlank).reverse

/-- The value of a digit up to `z`. -/
def digitIn? (base : Nat) (c : Char) : Option Nat :=
  let value := (digitValue? c).orElse fun _ =>
    if 'a' ≤ c ∧ c ≤ 'z' then some (c.toNat - 'a'.toNat + 10)
    else if 'A' ≤ c ∧ c ≤ 'Z' then some (c.toNat - 'A'.toNat + 10)
    else none
  value.filter (· < base)

/-- All digits of a numeral in which an underscore may stand only between two of them. -/
def digitsOf? (base : Nat) : List Char → Option (List Nat)
  | [] => none
  | [c] => (digitIn? base c).map fun d => [d]
  | c :: '_' :: rest => do return (← digitIn? base c) :: (← digitsOf? base rest)
  | c :: rest => do return (← digitIn? base c) :: (← digitsOf? base rest)

def ofDigits (base : Nat) (digits : List Nat) : Nat :=
  digits.foldl (fun n d => n * base + d) 0

/-- A numeral in a base that is not a power of two has at most this many digits. -/
def maxDigits : Nat := 4300

/-- Whether a decimal numeral of an integer has more digits than that. -/
@[irreducible]
def exceedsDigits (i : Int) : Bool :=
  Nat.pow 10 maxDigits ≤ i.natAbs

def isPowerOfTwo (base : Nat) : Bool :=
  base = 2 || base = 4 || base = 8 || base = 16 || base = 32

/-- Cuts off the mark of a base (`0x`, `0o`, `0b`) and one underscore behind it. -/
def cutBaseMark? (base : Nat) : List Char → Option (List Char)
  | '0' :: mark :: rest =>
    let marked := match base with
      | 2 => mark = 'b' || mark = 'B'
      | 8 => mark = 'o' || mark = 'O'
      | 16 => mark = 'x' || mark = 'X'
      | _ => false
    if marked then
      match rest with
      | '_' :: more => some more
      | more => some more
    else none
  | _ => none

def readNat? (base : Nat) (cs : List Char) : Option Nat := do
  let digits ← digitsOf? base cs
  if digits.length > maxDigits && !isPowerOfTwo base then none
  else some (ofDigits base digits)

/-- A numeral without a sign. Base 0 takes the base from the mark; without one the numeral is
decimal and starts with zero only if it is zero. -/
def readMagnitude? (base : Nat) (cs : List Char) : Option Nat :=
  if base = 0 then
    match [2, 8, 16].findSome? fun b => (cutBaseMark? b cs).map (b, ·) with
    | some (b, rest) => readNat? b rest
    | none => (readNat? 10 cs).filter fun n => n = 0 || cs.head? != some '0'
  else readNat? base ((cutBaseMark? base cs).getD cs)

/-- An integer numeral in the given base, which is 0 or from 2 to 36. -/
def readInt? (base : Nat) (cs : List Char) : Option Int :=
  match stripNumeral cs with
  | '-' :: rest => (readMagnitude? base rest).map fun n => -n
  | '+' :: rest => (readMagnitude? base rest).map fun n => n
  | rest => (readMagnitude? base rest).map fun n => n

/-- ASCII lower case. -/
def lowerAscii (cs : List Char) : List Char :=
  cs.map Char.toLower

/-- Takes a run of digits with single underscores between them; none is taken if the run is
ill-formed. -/
def takeDigits (cs : List Char) : List Nat × List Char :=
  let run := cs.takeWhile fun c => (digitValue? c).isSome || c = '_'
  match digitsOf? 10 run with
  | some digits => (digits, cs.drop run.length)
  | none => ([], cs)

def readExponent? : List Char → Option Int
  | [] => some 0
  | e :: rest =>
    if e = 'e' || e = 'E' then
      match rest with
      | '-' :: more => signed more (-1)
      | '+' :: more => signed more 1
      | more => signed more 1
    else none
where
  signed (cs : List Char) (sign : Int) : Option Int :=
    match takeDigits cs with
    | (d :: digits, []) => some (sign * ofDigits 10 (d :: digits))
    | _ => none

/-- Digits with an optional point, at least one of them, and an optional exponent. -/
def readMagnitude64? (negative : Bool) (cs : List Char) : Option Binary64 :=
  let (whole, rest) := takeDigits cs
  let (fraction, rest) := match rest with
    | '.' :: more => takeDigits more
    | more => ([], more)
  if whole.isEmpty && fraction.isEmpty then none
  else (readExponent? rest).map fun e =>
    .ofDecimal negative (ofDigits 10 (whole ++ fraction)) (e - fraction.length)

def readUnsigned64? (negative : Bool) (cs : List Char) : Option Binary64 :=
  let word := lowerAscii cs
  if word = "nan".toList then some .nan
  else if word = "inf".toList || word = "infinity".toList then some (.infinite negative)
  else readMagnitude64? negative cs

def readBinary64? (cs : List Char) : Option Binary64 :=
  match stripNumeral cs with
  | '-' :: rest => readUnsigned64? true rest
  | '+' :: rest => readUnsigned64? false rest
  | rest => readUnsigned64? false rest

end SymbolExport.Number
