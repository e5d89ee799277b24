import SymbolExport.Text.Quoted

/-!
Characters and their bytes. Reading stops at the first ill-formed sequence and says where it lies.
-/
namespace SymbolExport.Text

inductive Utf8Fault
  | badStart
  | badContinuation
  | endOfData
  deriving DecidableEq, Repr

def Utf8Fault.message : Utf8Fault → String
  | .badStart => "invalid start byte"
  | .badContinuation => "invalid continuation byte"
  | .endOfData => "unexpected end of data"

/-- An ill-formed sequence: the position of its first byte, that byte, and its length. -/
structure Utf8Error where
  position : Nat
  byte : UInt8
  length : Nat
  fault : Utf8Fault
  deriving DecidableEq, Repr

/-- A sequence under way: how many bytes are left, and the bounds of the next one. -/
structure Utf8Sequence where
  start : Nat
  lead : UInt8
  value : Nat
  low : UInt8
  high : UInt8
  left : Nat

/-- The sequence that a byte outside ASCII opens. Surrogates, overlong forms and code points past
the last plane are shut out by the bounds of the second byte. -/
def Utf8Sequence.opened? (position : Nat) (b : UInt8) : Option Utf8Sequence :=
  let n := b.toNat
  if n < 0xc2 then none
  else if n < 0xe0 then some ⟨position, b, n - 0xc0, 0x80, 0xbf, 1⟩
  else if n < 0xf0 then
    let low := if n = 0xe0 then 0xa0 else 0x80
    let high := if n = 0xed then 0x9f else 0xbf
    some ⟨position, b, n - 0xe0, low, high, 2⟩
  else if n < 0xf5 then
    let low := if n = 0xf0 then 0x90 else 0x80
    let high := if n = 0xf4 then 0x8f else 0xbf
    some ⟨position, b, n - 0xf0, low, high, 3⟩
  else none

def Utf8Sequence.push (s : Utf8Sequence) (b : UInt8) : Utf8Sequence :=
  ⟨s.start, s.lead, s.value * 64 + (b.toNat - 0x80), 0x80, 0xbf, s.left - 1⟩

def decodeUtf8From (position : Nat) : Option Utf8Sequence → List UInt8 →
    Except Utf8Error (List Char)
  | none, [] => .ok []
  | some s, [] => .error ⟨s.start, s.lead, position - s.start, .endOfData⟩
  | none, b :: rest =>
    if b < 0x80 then (decodeUtf8From (position + 1) none rest).map (Char.ofNat b.toNat :: ·)
    else match Utf8Sequence.opened? position b with
      | none => .error ⟨position, b, 1, .badStart⟩
      | some s => decodeUtf8From (position + 1) (some s) rest
  | some s, b :: rest =>
    if s.low ≤ b ∧ b ≤ s.high then
      if s.left ≤ 1 then
        (decodeUtf8From (position + 1) none rest).map (Char.ofNat (s.push b).value :: ·)
      else decodeUtf8From (position + 1) (some (s.push b)) rest
    else .error ⟨s.start, s.lead, position - s.start, .badContinuation⟩

def decodeUtf8 (bytes : List UInt8) : Except Utf8Error (List Char) :=
  decodeUtf8From 0 none bytes

def encodeUtf8 (cs : List Char) : List UInt8 :=
  cs.flatMap String.utf8EncodeChar

/-- A byte by its number in base 16. -/
def byteText (b : UInt8) : List Char :=
  '0' :: 'x' :: hexDigits 2 b.toNat

def Utf8Error.message (e : Utf8Error) : String :=
  let place :=
    if e.length = 1 then
      "byte " ++ String.ofList (byteText e.byte) ++ " in position " ++ toString e.position
    else "bytes in position " ++ toString e.position ++ "-" ++
      toString (e.position + e.length - 1)
  "'utf-8' codec can't decode " ++ place ++ ": " ++ e.fault.message

end SymbolExport.Text
