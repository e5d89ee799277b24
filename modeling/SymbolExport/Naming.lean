import SymbolExport.Text.Lowercase

/-! Values derived from names. -/
namespace SymbolExport.Naming

open SymbolExport.Text

def isLowerLetter (c : Char) : Bool :=
  'a' ≤ c && c ≤ 'z'

def isUpperLetter (c : Char) : Bool :=
  'A' ≤ c && c ≤ 'Z'

/-- Puts an underscore at each boundary from a lower to an upper case letter. Runs of capitals are
not split. -/
def snakeCase : List Char → List Char
  | a :: b :: rest =>
    if isLowerLetter a && isUpperLetter b then a :: '_' :: b :: snakeCase rest
    else a :: snakeCase (b :: rest)
  | cs => cs

/-- The value of an enumeration member that has none: `UserActive` gives `user_active`. -/
def enumValue (name : List Char) : List Char :=
  lowercase (snakeCase name)

end SymbolExport.Naming
