/-! Classes of characters given by the ranges of their code points. -/
namespace SymbolExport.Text

/-- Ranges of code points, both ends included. -/
abbrev CharRanges := List (Nat × Nat)

def CharRanges.contains (ranges : CharRanges) (c : Char) : Bool :=
  ranges.any fun range => range.1 ≤ c.toNat && c.toNat ≤ range.2

end SymbolExport.Text
