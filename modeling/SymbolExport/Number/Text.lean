import SymbolExport.Number.Shortest

/-! Numerals of integers and of floating point numbers. -/
namespace SymbolExport.Number

def natText (n : Nat) : List Char :=
  Nat.toDigits 10 n

def intText (i : Int) : List Char :=
  if i < 0 then '-' :: natText i.natAbs else natText i.natAbs

/-- A leading digit, a point before further ones, and a signed exponent of at least two digits. -/
def scientificText (digits : List Char) (exponent : Int) : List Char :=
  let mantissa := match digits with
    | [] => []
    | [d] => [d]
    | d :: more => d :: '.' :: more
  let size := natText exponent.natAbs
  let padded := if size.length < 2 then '0' :: size else size
  mantissa ++ 'e' :: (if exponent < 0 then '-' else '+') :: padded

/-- Digits with a point before the place `point`, and at least one digit on either side of it. -/
def positionalText (digits : List Char) (point : Int) : List Char :=
  if point ≤ 0 then '0' :: '.' :: List.replicate (-point).toNat '0' ++ digits
  else
    let whole := digits.take point.toNat
    let fraction := digits.drop point.toNat
    whole ++ List.replicate (point.toNat - whole.length) '0' ++
      '.' :: (if fraction.isEmpty then ['0'] else fraction)

/-- The shortest numeral that reads back; positional from `10 ^ -4` to below `10 ^ 16`. -/
def magnitudeText (significand : Nat) (exponent : Int) : List Char :=
  let (c, k) := shortestDecimal significand exponent
  let digits := natText c
  let point := k + digits.length
  if significand = 0 then ['0', '.', '0']
  else if -4 < point ∧ point ≤ 16 then positionalText digits point
  else scientificText digits (point - 1)

/-- The words for the numbers that no numeral denotes. -/
structure NonFiniteWords where
  nan : List Char
  infinity : List Char

def Binary64.textWith (words : NonFiniteWords) : Binary64 → List Char
  | .nan => words.nan
  | .infinite negative => if negative then '-' :: words.infinity else words.infinity
  | .finite negative m e => if negative then '-' :: magnitudeText m e else magnitudeText m e

def Binary64.text : Binary64 → List Char :=
  Binary64.textWith ⟨"nan".toList, "inf".toList⟩

end SymbolExport.Number
