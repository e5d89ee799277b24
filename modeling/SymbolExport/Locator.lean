import SymbolExport.Tree.Walk
import SymbolExport.World

/-! Finding the source files of an export. -/
namespace SymbolExport

def sourceExtension : String :=
  ".py"

/-- The source files below a directory, which must exist. -/
def World.sourceFiles (w : World) (root : Path) (extension label : String) :
    Except Failure (List SourceUnit) := do
  let root ← w.expandHome root
  if w.tree.isDirectory w.cwd root then
    return sourceUnits w.tree (← w.resolve root) extension
  else throw (.directoryNotFound label root)

end SymbolExport
