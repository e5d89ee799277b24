import SymbolExport.Value

/-! Which values an export of constants can hold, and the form in which it holds them. -/
namespace SymbolExport.Value

mutual

/-- Plain values and collections of them, with texts as the keys of dictionaries. A member of an
enumeration is none, whatever data it is. -/
def isExportable : Value → Bool
  | null | bool _ | int _ | float _ | str _ | derivedInt _ | derivedStr _ => true
  | list items | tuple items => allExportable items
  | dict entries => allEntriesExportable entries
  | member .. | object _ => false

def allExportable : List Value → Bool
  | [] => true
  | item :: rest => isExportable item && allExportable rest

def allEntriesExportable : List (Value × Value) → Bool
  | [] => true
  | (key, value) :: rest => key.str?.isSome && isExportable value && allEntriesExportable rest

end

mutual

/-- Turns tuples into lists at every depth. -/
def plain : Value → Value
  | tuple items | list items => list (plainAll items)
  | dict entries => dict (plainEntries entries)
  | value => value

def plainAll : List Value → List Value
  | [] => []
  | item :: rest => plain item :: plainAll rest

def plainEntries : List (Value × Value) → List (Value × Value)
  | [] => []
  | (key, value) :: rest => (key, plain value) :: plainEntries rest

end

end SymbolExport.Value
