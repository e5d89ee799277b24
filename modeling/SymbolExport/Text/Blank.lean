import SymbolExport.Text.CharRange

/-! Blank characters, and cutting them off both ends of a text. -/
namespace SymbolExport.Text

/-- Characters that separate: spaces, line ends, and the four information separators. -/
def blankRanges : CharRanges :=
  [(0x9, 0xd), (0x1c, 0x20), (0x85, 0x85), (0xa0, 0xa0), (0x1680, 0x1680), (0x2000, 0x200a),
   (0x2028, 0x2029), (0x202f, 0x202f), (0x205f, 0x205f), (0x3000, 0x3000)]

def isBlank (c : Char) : Bool :=
  blankRanges.contains c

def strip (cs : List Char) : List Char :=
  ((cs.dropWhile isBlank).reverse.dropWhile isBlank).reverse

def allBlank (cs : List Char) : Bool :=
  cs.all isBlank

end SymbolExport.Text
