import SymbolExport.Value.Equal

/-!
The order of values, and sorting as far as values can be compared: numbers by magnitude, texts by
their characters, lists and tuples by the first elements that differ. A sort ends at two values that
cannot be compared, and what it has done by then stays.
-/
namespace SymbolExport

open SymbolExport.Number

namespace Magnitude

/-- The number itself; an integer is not rounded. -/
def exact : Magnitude → Binary64
  | int i => .finite (i < 0) i.natAbs 0
  | float x => x

def less : Magnitude → Magnitude → Bool
  | int i, int j => i < j
  | m, n => m.exact.less n.exact

end Magnitude

mutual

/-- Whether a value is less than another one, if the two can be compared. -/
def Value.less? : Value → Value → Option Bool
  | .list a, .list b | .tuple a, .tuple b => Value.lessAll? a b
  | .object .bytes, .object .bytes | .object .set, .object .set => some false
  | a, b =>
    match a.magnitude?, b.magnitude? with
    | some m, some n => some (m.less n)
    | _, _ =>
      match a.str?, b.str? with
      | some s, some t => some (s < t)
      | _, _ => none

def Value.lessAll? : List Value → List Value → Option Bool
  | _, [] => some false
  | [], _ :: _ => some true
  | a :: as, b :: bs => if a.equal b then Value.lessAll? as bs else Value.less? a b

end

namespace Value

/-- How many values go on falling, or go on not falling, behind a last one. -/
def runLength? (isFalling : Bool) (last : Value) : List Value → Option Nat
  | [] => some 0
  | v :: rest => do
    if (← v.less? last) = isFalling then return (← runLength? isFalling v rest) + 1 else return 0

/-- Puts a value in front of the first sorted one that is greater. -/
def insertSorted? (v : Value) : List Value → Option (List Value)
  | [] => some [v]
  | u :: rest => do
    if ← v.less? u then return v :: u :: rest else return u :: (← insertSorted? v rest)

/-- Puts values among sorted ones, one after the other. Those from the first that cannot be compared
stay behind them. -/
def insertAll (sorted : List Value) : List Value → List Value
  | [] => sorted
  | v :: rest =>
    match insertSorted? v sorted with
    | some more => insertAll more rest
    | none => sorted ++ v :: rest

/-- Sorts values as far as they can be compared. The ones that fall or rise in front are taken
together first, and nothing is moved if that fails. -/
def sortedAsFar (values : List Value) : List Value :=
  match values with
  | u :: v :: rest =>
    match do
      let isFalling ← v.less? u
      return (isFalling, ← runLength? isFalling v rest) with
    | none => values
    | some (isFalling, n) =>
      let run := u :: v :: rest.take n
      insertAll (if isFalling then run.reverse else run) (rest.drop n)
  | _ => values

end Value

end SymbolExport
