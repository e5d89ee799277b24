import SymbolExport.Command
import SymbolExport.CommandLine.Reading
import SymbolExport.Export
import SymbolExport.Settings

/-!
What an export is asked to do. The command line comes first, then the settings of the project, then
the defaults of the command; an empty text counts as none.
-/
namespace SymbolExport

def firstGiven (texts : List (Option String)) (fallback : String) : String :=
  ((texts.filterMap id).find? fun s => !s.isEmpty).getD fallback

/-- The options for an export of a project. -/
def Command.exportOptions (c : Command) (r : LineReading) (s : CommandSettings)
    (appDirectory : String) (project : Path) : ExportOptions :=
  let path := firstGiven [r.text? pathName, s.path?] c.defaultPath
  let output := firstGiven [r.operand?, s.output?] c.defaultOutput
  { sourceRoot := (project.join (.ofString appDirectory)).join (.ofString path)
    outputPath := project.join (.ofString output)
    importRoot := project
    suffix := firstGiven [r.text? suffixName, s.suffix?] c.defaultSuffix
    emitDeclarations :=
      (r.switches.get? declarationsName).getD (s.emitDeclarations?.getD false)
    ignore := s.ignore?.getD c.defaultIgnore }

def Command.exporter (c : Command) : Exporter where
  mode := c.mode
  isReadonly := c.isReadonly
  label := c.label

end SymbolExport
