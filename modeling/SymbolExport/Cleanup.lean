import SymbolExport.Import

/-!
The cleanup behind a block of imports. It forgets the new modules that lie below the import root, by
the file that each of them tells for its own and by the directory of a package; before it forgets
the first one it must know these places of all of them.
-/
namespace SymbolExport

open SymbolExport.Text

/-- Why a cleanup fails. -/
inductive CleanupFault
  | unknownPath (fault : ImportFault)
  | notPath (typeName : String)
  | linkLoop (path : Path)

def CleanupFault.message : CleanupFault → String
  | unknownPath fault => fault.message
  | notPath typeName =>
    if typeName = "bytes" then
      "argument should be a str object or an os.PathLike object returning str, not <class 'bytes'>"
    else "expected str, bytes or os.PathLike object, not " ++ typeName
  | linkLoop path => "Symlink loop from " ++ quoted path.text

/-- Whether a value counts as nothing: null, false, zero, and what has no items. -/
def Value.isNothing (v : Value) : Bool :=
  match v.int?, v.str?, v.float?, v with
  | some i, _, _, _ => i = 0
  | _, some s, _, _ => s.isEmpty
  | _, _, some x, _ => x.equalInt 0
  | _, _, _, .null | _, _, _, .bool false => true
  | _, _, _, .list items | _, _, _, .tuple items => items.isEmpty
  | _, _, _, .dict entries => entries.isEmpty
  | _, _, _, _ => false

/-- The path that a symbol is, if it stands for a file at all. No file has a null character in its
path. -/
def Symbol.path? : Symbol → Except CleanupFault (Option Path)
  | .value v =>
    if v.isNothing then .ok none
    else match v.str? with
      | some s => .ok (if '\x00' ∈ s.toList then none else some (.ofString s))
      | none => .error (.notPath v.typeName)
  | .type c => .error (.notPath (if c.cases?.isSome then "EnumType" else "type"))
  | .object c => .error (.notPath c.name)
  | .module => .error (.notPath "module")

/-- The attribute by which a module tells its file. A module or a submodule of this name takes its
place. -/
def fileAttribute : String :=
  "__file__"

/-- The file that a module tells for its own. -/
def LoadedModule.toldFile? (m : LoadedModule) : Except CleanupFault (Option Path) :=
  match m.attributes.get? fileAttribute with
  | some symbol => symbol.path?
  | none => .ok (m.origin.file?.map Path.ofLocation)

/-- The places of a module: the file that it tells, and the directory of a package. -/
def LoadedModule.places (m : LoadedModule) : Except CleanupFault (List Path) :=
  m.toldFile?.map fun file? =>
    file?.toList ++ (m.origin.directory?.map Path.ofLocation).toList

/-- Follows the links of one place after the other, up to the first one that lies below a root. -/
def Tree.anyBelow (tree : Tree) (cwd root : Location) : List Path → Except CleanupFault Bool
  | [] => .ok false
  | place :: rest => do
    let real ← (tree.resolve cwd place).mapError CleanupFault.linkLoop
    if root.isPrefixOf real then return true else anyBelow tree cwd root rest

namespace ModuleCache

/-- The loaded module with the directory that its path leads to now. Looking up the path of a bare
directory may move it and those around it. -/
def lookAgain (cache : ModuleCache) (tree : Tree) (root : Location) (name : String)
    (m : LoadedModule) : Except CleanupFault (LoadedModule × ModuleCache) :=
  match m.origin with
  | .bareDirectory _ =>
    match cache.directoryOf tree root (componentsOf name) with
    | .error fault => .error (.unknownPath fault)
    | .ok (directory, cache) => .ok ({ m with origin := .bareDirectory directory }, cache)
  | _ => .ok (m, cache)

/-- The names of the modules below the root that were not loaded before. -/
def namesToForget (before : ModuleCache) (tree : Tree) (cwd root : Location) :
    List (String × LoadedModule) → ModuleCache → Except CleanupFault (List String) × ModuleCache
  | [], cache => (.ok [], cache)
  | (name, m) :: rest, cache =>
    if before.has name then namesToForget before tree cwd root rest cache
    else match cache.lookAgain tree root name m with
      | .error fault => (.error fault, cache)
      | .ok (m, cache) =>
        match m.places >>= tree.anyBelow cwd root with
        | .error fault => (.error fault, cache)
        | .ok isBelow =>
          let (names, cache) := namesToForget before tree cwd root rest cache
          (names.map fun names => if isBelow then name :: names else names, cache)

/-- Forgets the modules below the root that were not loaded before. None is forgotten if it fails. -/
def cleanUp (cache before : ModuleCache) (tree : Tree) (cwd root : Location) :
    Except CleanupFault Unit × ModuleCache :=
  match namesToForget before tree cwd root cache cache with
  | (.error fault, cache) => (.error fault, cache)
  | (.ok names, cache) => (.ok (), names.foldl Table.erase cache)

end ModuleCache

end SymbolExport
