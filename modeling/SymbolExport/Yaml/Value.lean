import SymbolExport.Number.Reading
import SymbolExport.Number.Text
import SymbolExport.Text.Lowercase
import SymbolExport.Text.Quoted
import SymbolExport.Yaml.Tag

/-! Values of scalars, read from their texts according to their tags. -/
namespace SymbolExport.Yaml

open SymbolExport.Number

/-- The value of a scalar. A moment is a date with an optional time, by its text. -/
inductive ScalarValue
  | null
  | bool (b : Bool)
  | int (i : Int)
  | float (x : Binary64)
  | str (s : List Char)
  | bytes (b : List UInt8)
  | moment (text : List Char)
  deriving DecidableEq, Repr

namespace ScalarValue

def byteChars (b : UInt8) : List Char :=
  let c := Char.ofNat b.toNat
  if c = '\\' then ['\\', '\\']
  else if 32 ≤ b.toNat && b.toNat < 127 then [c]
  else SymbolExport.Text.escapeHidden c

def bytesText (b : List UInt8) : List Char :=
  let hasSingle := b.any fun x => x.toNat = 39
  let hasDouble := b.any fun x => x.toNat = 34
  let mark := if hasSingle && !hasDouble then '"' else '\''
  'b' :: mark :: (b.flatMap fun x =>
    if x.toNat = mark.toNat then ['\\', mark] else byteChars x) ++ [mark]

/-- The text of a value. -/
def text : ScalarValue → List Char
  | null => "None".toList
  | bool b => if b then "True".toList else "False".toList
  | int i => intText i
  | float x => x.text
  | str s => s
  | bytes b => bytesText b
  | moment t => t

/-- Whether two values are the same key of a table. Numbers are by magnitude. -/
def sameKey : ScalarValue → ScalarValue → Bool
  | float .nan, float .nan => true
  | float x, float y => x.equal y
  | a, b =>
    match integral? a, integral? b, a, b with
    | some i, some j, _, _ => i = j
    | some i, _, _, float y => y.equalInt i
    | _, some j, float x, _ => x.equalInt j
    | _, _, a, b => a = b
where
  integral? : ScalarValue → Option Int
    | bool b => some (if b then 1 else 0)
    | int i => some i
    | _ => none

end ScalarValue

def boolWords : List (String × Bool) :=
  [("yes", true), ("no", false), ("true", true), ("false", false), ("on", true), ("off", false)]

def boolOf (text : List Char) : Except Fault ScalarValue :=
  match boolWords.find? fun entry => entry.1.toList = SymbolExport.Text.lowercase text with
  | some (_, b) => .ok (.bool b)
  | none => .error .badTruth

def splitColons : List Char → List (List Char)
  | [] => [[]]
  | c :: rest =>
    if c = ':' then [] :: splitColons rest
    else match splitColons rest with
      | [] => [[c]]
      | part :: more => (c :: part) :: more

def required {α : Type} (x? : Option α) : Except Fault α :=
  match x? with
  | some x => .ok x
  | none => .error .badNumber

/-- The sign of a numeral and what follows it. There must be a character before the sign is read. -/
def signOf : List Char → Except Fault (Bool × List Char)
  | [] => .error .noNumeral
  | '-' :: rest => .ok (true, rest)
  | '+' :: rest => .ok (false, rest)
  | cs => .ok (false, cs)

/-- Integers in base 2, 8, 10 and 16, and in groups of base 60. -/
def magnitudeOf (cs : List Char) : Except Fault Int :=
  match cs with
  | ['0'] => .ok 0
  | '0' :: 'b' :: rest => required (readInt? 2 rest)
  | '0' :: 'x' :: rest => required (readInt? 16 rest)
  | '0' :: _ => required (readInt? 8 cs)
  | [] => .error .noNumeral
  | _ =>
    if ':' ∈ cs then do
      let parts ← (splitColons cs).mapM fun part => required (readInt? 10 part)
      return parts.foldl (fun n digit => n * 60 + digit) 0
    else required (readInt? 10 cs)

def intOf (text : List Char) : Except Fault ScalarValue := do
  let (isNegative, cs) ← signOf (text.filter (· ≠ '_'))
  let n ← magnitudeOf cs
  return .int (if isNegative then -n else n)

/-- The sum of groups of base 60, the last one first. -/
def sixtiesSum (base : Nat) (sum : Binary64) : List Binary64 → Binary64
  | [] => sum
  | digit :: rest => sixtiesSum (base * 60) (sum.add (digit.mul (.ofInt base))) rest

def floatOf (text : List Char) : Except Fault ScalarValue := do
  let (isNegative, cs) ← signOf (SymbolExport.Text.lowercase (text.filter (· ≠ '_')))
  let x ←
    if cs = ".inf".toList then pure (Binary64.infinite false)
    else if cs = ".nan".toList then pure .nan
    else if ':' ∈ cs then do
      let parts ← (splitColons cs).mapM fun part => required (readBinary64? part)
      pure (sixtiesSum 1 (.ofInt 0) parts.reverse)
    else required (readBinary64? cs)
  return .float (if isNegative then x.neg else x)

def base64Value? (c : Char) : Option Nat :=
  if 'A' ≤ c && c ≤ 'Z' then some (c.toNat - 'A'.toNat)
  else if 'a' ≤ c && c ≤ 'z' then some (c.toNat - 'a'.toNat + 26)
  else if c.isDigit then some (c.toNat - '0'.toNat + 52)
  else if c = '+' then some 62
  else if c = '/' then some 63
  else none

/-- Bytes from digits of base 64, four digits for three bytes; other characters are passed over, and
padding that completes a group ends the data. `place` is the place in the group, `left` holds the
bits that are left over, and `pads` counts the padding since the last digit. -/
def bytesFrom (place left pads : Nat) : List Char → Except Fault (List UInt8)
  | [] => if place = 0 then .ok [] else .error .malformed
  | c :: rest =>
    if c = '=' then
      if place ≥ 2 then
        if place + pads + 1 ≥ 4 then .ok [] else bytesFrom place left (pads + 1) rest
      else bytesFrom place left pads rest
    else match base64Value? c with
      | none => bytesFrom place left pads rest
      | some v =>
        let bits := left * 64 + v
        let byte (shift : Nat) (place : Nat) : Except Fault (List UInt8) :=
          (bytesFrom place (bits % Nat.pow 2 shift) 0 rest).map
            (UInt8.ofNat (bits / Nat.pow 2 shift) :: ·)
        match place with
        | 0 => bytesFrom 1 v 0 rest
        | 1 => byte 4 2
        | 2 => byte 2 3
        | _ => byte 0 0

def binaryOf (text : List Char) : Except Fault ScalarValue :=
  if text.all fun c => c.toNat < 128 then (bytesFrom 0 0 0 text).map .bytes
  else .error .malformed

def isLeapYear (year : Nat) : Bool :=
  year % 4 = 0 && (year % 100 ≠ 0 || year % 400 = 0)

def daysIn (year month : Nat) : Nat :=
  if month = 2 then if isLeapYear year then 29 else 28
  else if month ∈ [4, 6, 9, 11] then 30
  else 31

def twoDigits (n : Nat) : List Char :=
  let digits := natText n
  if digits.length < 2 then '0' :: digits else digits

def padLeft (width : Nat) (digits : List Char) : List Char :=
  List.replicate (width - digits.length) '0' ++ digits

def padRight (width : Nat) (digits : List Char) : List Char :=
  digits ++ List.replicate (width - digits.length) '0'

def numberOf (digits : List Char) : Nat :=
  (readNat? 10 digits).getD 0

/-- The offset of a zone from the standard time, which is less than a day. -/
def zoneText (zone? : Option (Char × List Char × List Char)) : Except Fault (List Char) :=
  match zone? with
  | none => .ok []
  | some ('Z', _, _) => .ok "+00:00".toList
  | some (sign, hours, minutes) =>
    let offset := numberOf hours * 60 + numberOf minutes
    if offset ≥ 24 * 60 then .error .badNumber
    else
      let mark := if sign = '-' && offset > 0 then '-' else '+'
      .ok (mark :: twoDigits (offset / 60) ++ ':' :: twoDigits (offset % 60))

def timeText (parts : MomentParts) : Except Fault (List Char) :=
  match parts.time? with
  | none => .ok []
  | some (hour, minute, second) => do
    let fraction := padRight 6 (parts.fraction.take 6)
    let fractionText := if numberOf fraction = 0 then [] else '.' :: fraction
    let zone ← zoneText parts.zone?
    if numberOf hour ≥ 24 || numberOf minute ≥ 60 || numberOf second ≥ 60 then throw .badNumber
    return ' ' :: twoDigits (numberOf hour) ++ ':' :: minute ++ ':' :: second ++
      fractionText ++ zone

def momentOf (text : List Char) : Except Fault ScalarValue :=
  match momentParts? (withoutLastBreak text) with
  | none => .error .badMoment
  | some parts => do
    let year := numberOf parts.year
    let month := numberOf parts.month
    let day := numberOf parts.day
    let isDate := 1 ≤ year && 1 ≤ month && month ≤ 12 && 1 ≤ day && day ≤ daysIn year month
    if !isDate then throw .badNumber
    return .moment (padLeft 4 (natText year) ++ '-' :: twoDigits month ++ '-' :: twoDigits day ++
      (← timeText parts))

end SymbolExport.Yaml
