import SymbolExport.Text.Printable

/-! Quoted texts, as messages show them. -/
namespace SymbolExport.Text

def hexDigits (width n : Nat) : List Char :=
  let digits := Nat.toDigits 16 n
  List.replicate (width - digits.length) '0' ++ digits

/-- A character that does not show as itself: by a short escape or by its code point. -/
def escapeHidden (c : Char) : List Char :=
  if c = '\n' then ['\\', 'n']
  else if c = '\r' then ['\\', 'r']
  else if c = '\t' then ['\\', 't']
  else if c.toNat < 0x100 then '\\' :: 'x' :: hexDigits 2 c.toNat
  else if c.toNat < 0x10000 then '\\' :: 'u' :: hexDigits 4 c.toNat
  else '\\' :: 'U' :: hexDigits 8 c.toNat

/-- Single quotes, unless the text has one of them and no double quote. -/
def quoteMark (cs : List Char) : Char :=
  if '\'' ∈ cs ∧ '"' ∉ cs then '"' else '\''

def quote (cs : List Char) : List Char :=
  let mark := quoteMark cs
  let body := cs.flatMap fun c =>
    if c = mark ∨ c = '\\' then ['\\', c]
    else if isPrintable c then [c]
    else escapeHidden c
  mark :: body ++ [mark]

def quoted (s : String) : String :=
  String.ofList (quote s.toList)

end SymbolExport.Text
