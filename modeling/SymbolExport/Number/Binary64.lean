/-!
Binary floating point numbers of 64 bits, as exact values: a finite one is
`significand * 2 ^ exponent`. Rounding goes to the nearest number and a tie to the even significand.
-/
namespace SymbolExport.Number

/-- A finite number is kept with the smallest exponent that its 53 bits allow, so that equal
numbers are equal values up to the sign of zero. -/
inductive Binary64
  | nan
  | infinite (negative : Bool)
  | finite (negative : Bool) (significand : Nat) (exponent : Int)
  deriving DecidableEq, Repr

namespace Binary64

def minExponent : Int := -1074

def maxExponent : Int := 971

/-- The quotient, rounded to the nearest integer and a tie to the even one. -/
def roundDiv (num den : Nat) : Nat :=
  let q := num / den
  let r := num % den
  if 2 * r > den ∨ (2 * r = den ∧ q % 2 = 1) then q + 1 else q

/-- The numerator and denominator of `num / den / 2 ^ e`. -/
def scaleDown (num den : Nat) (e : Int) : Nat × Nat :=
  if e ≥ 0 then (num, den * Nat.pow 2 e.toNat) else (num * Nat.pow 2 (-e).toNat, den)

/-- The number nearest to `num / den`. -/
def ofRatio (negative : Bool) (num den : Nat) : Binary64 :=
  if num = 0 ∨ den = 0 then .finite negative 0 minExponent
  else
    let guess : Int := (Nat.log2 num : Int) - Nat.log2 den - 52
    let (a, b) := scaleDown num den guess
    let e := max (if a / b < Nat.pow 2 52 then guess - 1 else guess) minExponent
    let (a, b) := scaleDown num den e
    let q := roundDiv a b
    let (q, e) := if q ≥ Nat.pow 2 53 then (Nat.pow 2 52, e + 1) else (q, e)
    if e > maxExponent then .infinite negative else .finite negative q e

/-- The number nearest to `digits * 10 ^ exponent`. No decimal numeral outside of
`10 ^ -400 .. 10 ^ 400` comes near a finite number other than zero. -/
def ofDecimal (negative : Bool) (digits : Nat) (exponent : Int) : Binary64 :=
  if digits = 0 then .finite negative 0 minExponent
  else
    let magnitude := (Nat.toDigits 10 digits).length + exponent
    if magnitude > 400 then .infinite negative
    else if magnitude < -400 then .finite negative 0 minExponent
    else if exponent ≥ 0 then ofRatio negative (digits * Nat.pow 10 exponent.toNat) 1
    else ofRatio negative digits (Nat.pow 10 (-exponent).toNat)

def ofInt (i : Int) : Binary64 :=
  ofRatio (i < 0) i.natAbs 1

/-- The sum or product of two finite numbers, from the exact fraction `num / den`. -/
def ofSignedRatio (num : Int) (den : Nat) : Binary64 :=
  ofRatio (num < 0) num.natAbs den

/-- The signed numerator over the common denominator `2 ^ 1074`. -/
def unitsOf (negative : Bool) (significand : Nat) (exponent : Int) : Int :=
  let n : Int := significand * Nat.pow 2 (exponent - minExponent).toNat
  if negative then -n else n

def add : Binary64 → Binary64 → Binary64
  | .nan, _ | _, .nan => .nan
  | .infinite s, .infinite t => if s = t then .infinite s else .nan
  | .infinite s, _ | _, .infinite s => .infinite s
  | .finite s m e, .finite t n f =>
    let sum := unitsOf s m e + unitsOf t n f
    if sum = 0 then .finite (s && t) 0 minExponent
    else ofSignedRatio sum (Nat.pow 2 1074)

def mul : Binary64 → Binary64 → Binary64
  | .nan, _ | _, .nan => .nan
  | .infinite s, .infinite t => .infinite (s != t)
  | .infinite s, .finite t n _ | .finite t n _, .infinite s =>
    if n = 0 then .nan else .infinite (s != t)
  | .finite s m e, .finite t n f =>
    let sign := s != t
    let g := e + f
    if g ≥ 0 then ofRatio sign (m * n * Nat.pow 2 g.toNat) 1
    else ofRatio sign (m * n) (Nat.pow 2 (-g).toNat)

def neg : Binary64 → Binary64
  | .nan => .nan
  | .infinite s => .infinite (!s)
  | .finite s m e => .finite (!s) m e

/-- The integer part, if there is one. -/
def truncate? : Binary64 → Option Int
  | .finite s m e =>
    let n : Nat := if e ≥ 0 then m * Nat.pow 2 e.toNat else m / Nat.pow 2 (-e).toNat
    some (if s then -n else n)
  | _ => none

/-- Numeric equality: nothing equals a NaN, and the two zeros are equal. -/
def equal : Binary64 → Binary64 → Bool
  | .infinite s, .infinite t => s = t
  | .finite s m e, .finite t n f => unitsOf s m e = unitsOf t n f
  | _, _ => false

/-- Numeric order: a NaN is neither less nor greater than anything. -/
def less : Binary64 → Binary64 → Bool
  | .infinite s, .infinite t => s && !t
  | .infinite s, .finite .. => s
  | .finite .., .infinite t => !t
  | .finite s m e, .finite t n f => unitsOf s m e < unitsOf t n f
  | _, _ => false

def equalInt : Binary64 → Int → Bool
  | .finite s m e, i => unitsOf s m e = i * Nat.pow 2 1074
  | _, _ => false

end Binary64

end SymbolExport.Number
