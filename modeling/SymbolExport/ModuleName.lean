import SymbolExport.Path
import SymbolExport.Text.Identifier

/-! The dotted name of the module in a file below an import root. -/
namespace SymbolExport

open SymbolExport.Text

/-- The path of the names between an import root and a file, which must not be the root itself. -/
structure EmptyName where
  path : Path

def EmptyName.message (e : EmptyName) : String :=
  "PosixPath('" ++ e.path.text ++ "') has an empty name"

/-- The name of a package is that of its directory. -/
def dropInit (parts : List String) : List String :=
  if parts.getLast? = some "__init__" then parts.dropLast else parts

/-- Names joined by dots, if there are any and all are identifiers. -/
def dotted? (parts : List String) : Option String :=
  if parts.isEmpty || !(parts.all fun part => isIdentifier part.toList) then none
  else some (".".intercalate parts)

/-- The dotted names from the root to the file, without the file's suffix. -/
def moduleName? (file root : Location) : Except EmptyName (Option String) :=
  match (Path.ofLocation file).relativeTo? (Path.ofLocation root) with
  | none => .ok none
  | some relative =>
    match relative.withoutSuffix? with
    | none => .error ⟨relative⟩
    | some bare => .ok (dotted? (dropInit bare.parts))

end SymbolExport
