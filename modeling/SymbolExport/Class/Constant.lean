import SymbolExport.Class
import SymbolExport.Value.Exportable

/-! The constants of a class, its own first and then the inherited ones. -/
namespace SymbolExport

def isConstantChar (c : Char) : Bool :=
  ('A' ≤ c && c ≤ 'Z') || ('0' ≤ c && c ≤ '9') || c = '_'

/-- Capitals, digits and underscores up to the end or to one line feed before it. -/
def isConstantTail : List Char → Bool
  | [] | ['\n'] => true
  | c :: rest => isConstantChar c && isConstantTail rest

/-- Names in capitals. -/
def isConstantName (name : String) : Bool :=
  match name.toList with
  | [] => false
  | c :: rest => 'A' ≤ c && c ≤ 'Z' && isConstantTail rest

/-- Adds the constants among the attributes of one class whose names are not yet found. -/
def addConstants (found : List Member) (attributes : List (String × Value)) : List Member :=
  attributes.foldl (fun found (name, value) =>
    if (found.any fun m => m.name = name) || !isConstantName name then found
    else if value.isExportable then found ++ [⟨name, value.plain⟩]
    else found) found

/-- The root of all classes has no constants. -/
def constantsOf (lineage : List ClassLevel) : List Member :=
  (lineage.filter fun level => level.serial ≠ ClassLevel.object.serial).foldl
    (fun found level => addConstants found level.attributes) []

def Class.constants (c : Class) : List Member :=
  constantsOf c.lineage

end SymbolExport
