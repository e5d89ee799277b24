import SymbolExport.Cleanup
import SymbolExport.Log
import SymbolExport.ModuleName

/-!
What a run can see and change: the files, where modules are searched, the loaded modules and the
log; and what the system does not let it write. An action that fails keeps the changes it has made.
-/
namespace SymbolExport

open SymbolExport.Text

structure World where
  tree : Tree
  cwd : Location
  home : Location
  /-- Why nothing may be written at a place, apart from what stands there. -/
  refusal? : Location → Option PathFault := Tree.refuseOverlong
  /-- Why a text cannot be encoded, which is so if it holds half of a character. The texts here hold
  none, so none of them is refused unless it is taken for a text that does. -/
  encodeFault? : List Char → Option String := fun _ => none
  searchPath : List Location := []
  modules : ModuleCache := []
  log : Log := []

/-- Failures of any action on files and modules. -/
inductive Failure
  | directoryNotFound (label : String) (path : Path)
  | noHome
  | linkLoop (path : Path)
  | system (fault : PathFault) (path : Path)
  | emptyName (e : EmptyName)
  | unencodable (message : String)
  | aborted (r : Raised)
  | cleanup (fault : CleanupFault)

def systemMessage (fault : PathFault) (path : Path) : String :=
  "[Errno " ++ toString fault.number ++ "] " ++ fault.description ++ ": " ++ quoted path.text

def Failure.message : Failure → String
  | directoryNotFound label path => label ++ " directory not found at " ++ path.text
  | noHome => "Could not determine home directory."
  | linkLoop path => "Symlink loop from " ++ quoted path.text
  | system fault path => systemMessage fault path
  | emptyName e => e.message
  | unencodable message => message
  | aborted r => r.message
  | cleanup fault => fault.message

/-- Whether the user can be told of a failure by its message alone. -/
def Failure.isExpected : Failure → Bool
  | directoryNotFound .. | system .. => true
  | noHome | linkLoop _ | emptyName _ | unencodable _ | aborted _ | cleanup _ => false

namespace World

def note (w : World) (level : LogLevel) (source : LogSource) (message : String) : World :=
  { w with log := w.log ++ [⟨level, source, message⟩] }

def debug (w : World) (source : LogSource) (message : String) : World :=
  w.note .debug source message

def resolve (w : World) (p : Path) : Except Failure Location :=
  (w.tree.resolve w.cwd p).mapError .linkLoop

def expandHome (w : World) (p : Path) : Except Failure Path :=
  match p.expandHome? w.home with
  | some p => .ok p
  | none => .error .noHome

/-- Imports a module. Only the front of the search path is searched: what stands behind it are the
installed libraries, which define no module of a project. -/
def importModule (w : World) (name : String) : Except ImportFault LoadedModule × World :=
  match w.searchPath with
  | [] => (.error (.noModule name), w)
  | root :: _ =>
    let (result, modules) := w.modules.importNamed w.tree root name
    (result, { w with modules := modules })

end World

end SymbolExport
