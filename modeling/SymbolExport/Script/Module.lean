import SymbolExport.Policy
import SymbolExport.Script.Literal

/-! The script module: one statement for each exported type. -/
namespace SymbolExport

/-- The members of the exported types by output name. -/
abbrev ExportTable := Table MemberTable

/-- Members as one literal. -/
def MemberTable.literal? (members : MemberTable) : Except LiteralError Literal := do
  let entries ← members.mapM fun (name, value) => do return (name, ← value.literal?)
  return .object entries

def statementText (outputName : String) (literal : Literal) : List Char :=
  "export const ".toList ++ outputName.toList ++ " = ".toList ++ literal.text 0 ++ ";\n\n".toList

def renderModule (entries : ExportTable) : Except LiteralError (List Char) := do
  let statements ← entries.mapM fun (outputName, members) => do
    return statementText outputName (← MemberTable.literal? members)
  return statements.flatten

end SymbolExport
