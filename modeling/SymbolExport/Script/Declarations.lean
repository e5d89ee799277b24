import SymbolExport.Path
import SymbolExport.Script.Module

/-! The declarations that go with a script module, and the file that holds them. -/
namespace SymbolExport

/-- Integers are numbers, and all else counts as text. -/
def declaredType (v : Value) : String :=
  if v.int?.isSome then "number" else "string"

def memberDeclaration (isReadonly : Bool) (name : String) (value : Value) : List Char :=
  "  ".toList ++ (if isReadonly then "readonly ".toList else []) ++ name.toList ++ ": ".toList ++
    (declaredType value).toList ++ ";\n".toList

def entryDeclaration (isReadonly : Bool) (outputName : String) (members : MemberTable) :
    List Char :=
  "export declare const ".toList ++ outputName.toList ++ ": \x7b\n".toList ++
    (members.flatMap fun (name, value) => memberDeclaration isReadonly name value) ++
    "\x7d;\n\n".toList

def renderDeclarations (isReadonly : Bool) (entries : ExportTable) : List Char :=
  entries.flatMap fun (outputName, members) => entryDeclaration isReadonly outputName members

def declarationSuffix : String :=
  ".d.ts"

/-- The file beside the module whose name has the declarations' suffix instead of its own. -/
def declarationPath? (output : Path) : Option Path :=
  output.withName? (output.stem ++ declarationSuffix)

end SymbolExport
