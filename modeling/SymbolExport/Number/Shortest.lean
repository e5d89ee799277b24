import SymbolExport.Number.Binary64

/-!
The shortest decimal numeral that reads back as a given number: the fewest digits of which one
numeral lies among the reals that round to the number, and of those the nearest.
-/
namespace SymbolExport.Number

/-- The reals that round to a number, as numerators over one denominator. -/
structure RoundingInterval where
  low : Nat
  value : Nat
  high : Nat
  den : Nat
  closed : Bool

/-- Halfway to the neighbours, which is nearer below a power of two; a tie goes to the even
significand, so the ends belong to the interval if the significand is even. -/
def roundingInterval (significand : Nat) (exponent : Int) : RoundingInterval :=
  let below := if significand = Nat.pow 2 52 ∧ exponent > Binary64.minExponent then 1 else 2
  let up := if exponent ≥ 2 then Nat.pow 2 (exponent - 2).toNat else 1
  let den := if exponent ≥ 2 then 1 else Nat.pow 2 (2 - exponent).toNat
  ⟨(4 * significand - below) * up, 4 * significand * up, (4 * significand + 2) * up, den,
    significand % 2 = 0⟩

/-- Whether `c * 10 ^ k` lies in the interval. -/
def RoundingInterval.holds (r : RoundingInterval) (c : Nat) (k : Int) : Bool :=
  let x := if k ≥ 0 then c * Nat.pow 10 k.toNat * r.den else c * r.den
  let scale := if k ≥ 0 then 1 else Nat.pow 10 (-k).toNat
  if r.closed then r.low * scale ≤ x && x ≤ r.high * scale
  else r.low * scale < x && x < r.high * scale

/-- The multiple of `10 ^ k` in the interval that is nearest to the value, if there is one: only
the two neighbours of the value can be, and of two equally near ones it is the even one. -/
def RoundingInterval.nearest? (r : RoundingInterval) (k : Int) : Option Nat :=
  let num := if k ≥ 0 then r.value else r.value * Nat.pow 10 (-k).toNat
  let den := if k ≥ 0 then r.den * Nat.pow 10 k.toNat else r.den
  let c := num / den
  let rest := num % den
  let down := r.holds c k
  let up := r.holds (c + 1) k
  if down && up then
    some (if 2 * rest < den ∨ (2 * rest = den ∧ c % 2 = 0) then c else c + 1)
  else if down then some c
  else if up then some (c + 1)
  else none

/-- The first of at most `fuel` ever finer grids that has a hit. -/
def RoundingInterval.search (r : RoundingInterval) : Nat → Int → Nat × Int
  | 0, k => (r.value * Nat.pow 10 (-k).toNat / r.den, k)
  | fuel + 1, k =>
    match r.nearest? k with
    | some c => (c, k)
    | none => search r fuel (k - 1)

/-- An upper bound of the decimal exponent of the leading digit, at most two off. -/
def leadingExponent (r : RoundingInterval) : Int :=
  if r.value ≥ r.den then (Nat.toDigits 10 (r.value / r.den)).length
  else 1 - (Nat.toDigits 10 (r.den / r.value)).length + 1

def dropTrailingZeros (fuel : Nat) (c : Nat) (k : Int) : Nat × Int :=
  match fuel with
  | 0 => (c, k)
  | fuel + 1 => if c % 10 = 0 ∧ c ≠ 0 then dropTrailingZeros fuel (c / 10) (k + 1) else (c, k)

/-- Digits without trailing zeros and the exponent of ten of the last one. -/
def shortestDecimal (significand : Nat) (exponent : Int) : Nat × Int :=
  if significand = 0 then (0, 0)
  else
    let r := roundingInterval significand exponent
    let (c, k) := r.search 24 (leadingExponent r)
    dropTrailingZeros 24 c k

end SymbolExport.Number
