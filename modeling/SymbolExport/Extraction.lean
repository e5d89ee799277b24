import SymbolExport.Declaration
import SymbolExport.Policy
import SymbolExport.Text.Utf8
import SymbolExport.Tree.Walk
import SymbolExport.World

/-!
What one source file gives: the class that it declares first, that class as its module defines it,
and the members to export.
-/
namespace SymbolExport

open SymbolExport.Text

/-- A class by the module that defines it and its name there. -/
structure ResolvedType where
  moduleName : String
  name : String
  deriving DecidableEq, Repr

def ResolvedType.qualifiedName (t : ResolvedType) : String :=
  t.moduleName ++ "." ++ t.name

/-- Cuts a full name at its last dot. -/
def ResolvedType.ofQualified (full : String) : ResolvedType :=
  let backwards := full.toList.reverse
  let name := backwards.takeWhile (· ≠ '.')
  ⟨String.ofList (backwards.drop (name.length + 1)).reverse, String.ofList name.reverse⟩

inductive Outcome
  | unresolved
  | unloadable (type : ResolvedType)
  | empty (type : ResolvedType)
  | exported (type : ResolvedType) (outputName : String) (members : MemberTable)

namespace Outcome

def type? : Outcome → Option ResolvedType
  | unresolved => none
  | unloadable type | empty type | exported type .. => some type

def skipReason? : Outcome → Option String
  | unresolved => some "unresolved"
  | unloadable _ => some "unloadable"
  | empty _ => some "empty"
  | exported .. => none

def outputName? : Outcome → Option String
  | exported _ outputName _ => some outputName
  | _ => none

def members : Outcome → MemberTable
  | exported _ _ members => members
  | _ => []

end Outcome

/-- The outcome for one source file. -/
structure Extraction where
  unit : SourceUnit
  outcome : Outcome

/-- The text of a file, with line feeds at the line ends. -/
def World.readSource (w : World) (path : Path) : Except String (List Char) :=
  match w.tree.read w.cwd path with
  | .error fault => .error (systemMessage fault path)
  | .ok bytes =>
    match decodeUtf8 bytes with
    | .error e => .error (Utf8Error.message e)
    | .ok cs => .ok (unifyLineEnds cs)

/-- The full name of the class that a source declares first. -/
def World.extractName (w : World) (source : List Char) (moduleName? : Option String)
    (bases? : Option (List String)) : Option String × World :=
  match tokenize source with
  | .error fault => (none, w.debug .typeNames ("Tokenizer rejected source: " ++ fault.message))
  | .ok tokens => (qualifiedName? bases? moduleName? tokens, w)

/-- The class that a file declares first, named relative to the import root. -/
def World.resolveType (w : World) (path importRoot : Path) (bases? : Option (List String)) :
    Except Failure (Option ResolvedType) × World :=
  match w.readSource path with
  | .error reason =>
    (.ok none, w.debug .typeNames ("Could not read " ++ path.text ++ ": " ++ reason))
  | .ok source =>
    let name? := do
      let file ← w.resolve path
      let root ← w.resolve importRoot
      (moduleName? file root).mapError Failure.emptyName
    match name? with
    | .error failure => (.error failure, w)
    | .ok name? =>
      let (full?, w) := w.extractName source name? bases?
      (.ok (full?.map ResolvedType.ofQualified), w)

/-- What a name stands for in its module; null stands for nothing. -/
def LoadedModule.symbol? (m : LoadedModule) (name : String) : Option Symbol :=
  match m.attributes.get? name with
  | some (.value .null) => none
  | other => other

/-- Imports the module of a type and looks the type up there. Only exceptions that no import catches
are failures. -/
def World.loadType (w : World) (t : ResolvedType) : Except Raised (Option Symbol) × World :=
  match w.importModule t.moduleName with
  | (.error fault, w) =>
    let failed := w.debug .reflection
      ("Failed to import " ++ t.moduleName ++ ": " ++ fault.message)
    match fault with
    | .raised r => if r.isAbort then (.error r, w) else (.ok none, failed)
    | _ => (.ok none, failed)
  | (.ok m, w) =>
    match m.symbol? t.name with
    | some symbol => (.ok (some symbol), w)
    | none =>
      (.ok none, w.debug .reflection (t.name ++ " not found in module " ++ t.moduleName))

/-- Looks up types one after the other. -/
def World.loadTypes (w : World) :
    List ResolvedType → Except Failure (List (Option Symbol)) × World
  | [] => (.ok [], w)
  | t :: rest =>
    match w.loadType t with
    | (.error r, w) => (.error (.aborted r), w)
    | (.ok symbol?, w) =>
      match w.loadTypes rest with
      | (.error failure, w) => (.error failure, w)
      | (.ok symbols, w) => (.ok (symbol? :: symbols), w)

/-- Runs an action for which modules are searched below a root. Afterwards the modules that it
loaded from there are forgotten and the search path is as before, whether it failed or not, unless
the cleanup itself fails. -/
def World.importingFrom {α : Type} (w : World) (root : Location)
    (action : World → Except Failure α × World) : Except Failure α × World :=
  let (result, after) := action { w with searchPath := root :: w.searchPath }
  match after.modules.cleanUp w.modules after.tree after.cwd root with
  | (.error fault, modules) => (.error (.cleanup fault), { after with modules := modules })
  | (.ok (), modules) => (result, { after with modules := modules, searchPath := w.searchPath })

/-- The symbols that types were found to be, and all modules that were loaded by then. -/
structure Lookup where
  symbols : List (Option Symbol)
  modules : ModuleCache

/-- Looks up types in modules below an import root. -/
def World.lookUp (w : World) (importRoot : Path) (types : List ResolvedType) :
    Except Failure Lookup × World :=
  match w.resolve importRoot with
  | .error failure => (.error failure, w)
  | .ok root =>
    w.importingFrom root fun w =>
      match w.loadTypes types with
      | (.error failure, w) => (.error failure, w)
      | (.ok symbols, w) => (.ok ⟨symbols, w.modules⟩, w)

/-- What becomes of a type: it must be one that the mode takes, and have members. -/
def ExportMode.outcome (mode : ExportMode) (policy : Policy) (t : ResolvedType)
    (symbol? : Option Symbol) : Outcome :=
  match symbol?.bind mode.accepted? with
  | none => .unloadable t
  | some c =>
    let members := policy.normalize (mode.members c)
    if members.isEmpty then .empty t
    else .exported t (policy.outputName t.name) members

/-- What a file gives: its class, if one is found, and what becomes of it. -/
def World.extract (w : World) (mode : ExportMode) (policy : Policy) (importRoot : Path)
    (unit : SourceUnit) : Except Failure Extraction × World :=
  match w.resolveType (.ofLocation unit.path) importRoot mode.baseNames? with
  | (.error failure, w) => (.error failure, w)
  | (.ok none, w) => (.ok ⟨unit, .unresolved⟩, w)
  | (.ok (some t), w) =>
    match w.loadType t with
    | (.error r, w) => (.error (.aborted r), w)
    | (.ok symbol?, w) => (.ok ⟨unit, mode.outcome policy t symbol?⟩, w)

end SymbolExport
