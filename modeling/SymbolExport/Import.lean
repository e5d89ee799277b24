import SymbolExport.Text.Quoted
import SymbolExport.Tree.Resolve

/-!
Importing modules by name. Below the import root a name is a package with an initial file, a module
file, or a bare directory, in this order. A module is loaded once and kept by its name, and so are
the packages on the way to it and the modules that it imports itself.
-/
namespace SymbolExport

open SymbolExport.Text

inductive ModuleOrigin
  | file (place : Location)
  | package (directory : Location)
  | bareDirectory (directory : Location)
  deriving DecidableEq, Repr

structure LoadedModule where
  origin : ModuleOrigin
  attributes : Table Symbol := []

/-- Loaded modules by their dotted names. -/
abbrev ModuleCache := Table LoadedModule

/-- A missing key is shown as a value, everything else as text. -/
def Raised.message (r : Raised) : String :=
  match r.argument with
  | .text s => if r.kind = "KeyError" then quoted s else s
  | .code i => toString i

/-- Why an import fails. The parent of a bare directory must be loaded for its path to be known. -/
inductive ImportFault
  | malformedName
  | noModule (name : String)
  | notPackage (name parent : String)
  | lostParent (parent : String)
  | parentWithoutPath (parent : String)
  | nestedTooDeep
  | raised (r : Raised)

def ImportFault.message : ImportFault → String
  | malformedName => "Empty module name"
  | noModule name => "No module named " ++ quoted name
  | notPackage name parent =>
    "No module named " ++ quoted name ++ "; " ++ quoted parent ++ " is not a package"
  | lostParent parent => quoted parent
  | parentWithoutPath parent => "module " ++ quoted parent ++ " has no attribute '__path__'"
  | nestedTooDeep => "maximum recursion depth exceeded"
  | raised r => r.message

/-- The dotted name of components, the last one first. -/
def dottedName (reversed : List String) : String :=
  ".".intercalate reversed.reverse

def initialFile : String :=
  "__init__.py"

def moduleSuffix : String :=
  ".py"

/-- What a name stands for in a directory. -/
def searchModule (tree : Tree) (directory : Location) (name : String) : Option ModuleOrigin :=
  let base := directory ++ [name]
  if tree.isFile [] (.ofLocation (base ++ [initialFile])) then some (.package base)
  else
    let file := directory ++ [name ++ moduleSuffix]
    if tree.isFile [] (.ofLocation file) then some (.file file)
    else if tree.isDirectory [] (.ofLocation base) then some (.bareDirectory base)
    else none

/-- The file that is evaluated to load a module. -/
def ModuleOrigin.file? : ModuleOrigin → Option Location
  | file place => some place
  | package directory => some (directory ++ [initialFile])
  | bareDirectory _ => none

/-- The directory in which the submodules of a package are searched. -/
def ModuleOrigin.directory? : ModuleOrigin → Option Location
  | .file _ => none
  | .package directory | .bareDirectory directory => some directory

/-- What the file of a module holds to be evaluated. -/
def ModuleOrigin.body (tree : Tree) (origin : ModuleOrigin) : ModuleBody :=
  match origin.file?.map fun place => tree.stat [] (.ofLocation place) with
  | some (.ok (.file _ body)) => body
  | _ => {}

/-- Moves a bare directory to where its name is found now; it stays if it is not found. -/
def ModuleCache.relocate (cache : ModuleCache) (tree : Tree) (reversed : List String)
    (parent : Location) (stored : LoadedModule) (directory : Location) :
    Location × ModuleCache :=
  match searchModule tree parent (reversed.headD "") with
  | some (.bareDirectory found) =>
    (found, cache.insert (dottedName reversed) { stored with origin := .bareDirectory found })
  | _ => (directory, cache)

/-- The directory in which a loaded module's submodules are searched. That of a bare directory is
looked up again through its parent. -/
def ModuleCache.directoryOf (cache : ModuleCache) (tree : Tree) (root : Location) :
    List String → Except ImportFault (Location × ModuleCache)
  | [] => .ok (root, cache)
  | name :: outer =>
    match cache.get? (dottedName (name :: outer)) with
    | none => .error (.lostParent (dottedName (name :: outer)))
    | some m =>
      match m.origin with
      | .file _ => .error (.parentWithoutPath (dottedName (name :: outer)))
      | .package directory => .ok (directory, cache)
      | .bareDirectory directory =>
        (cache.directoryOf tree root outer).map fun (parent, cache) =>
          cache.relocate tree (name :: outer) parent m directory

/-- Makes a submodule an attribute of its package. -/
def ModuleCache.bindChild (cache : ModuleCache) (name : String) (outer : List String) :
    ModuleCache :=
  match cache.get? (dottedName outer) with
  | some m =>
    cache.insert (dottedName outer) { m with attributes := m.attributes.insert name .module }
  | none => cache

/-- A way to import a module by its name. -/
abbrev Importer := ModuleCache → String → Except ImportFault LoadedModule × ModuleCache

/-- Imports modules one after the other; the first failure ends it. -/
def Importer.importEach (importOne : Importer) (cache : ModuleCache) :
    List String → Except ImportFault Unit × ModuleCache
  | [] => (.ok (), cache)
  | name :: rest =>
    match importOne cache name with
    | (.error fault, cache) => (.error fault, cache)
    | (.ok _, cache) => importOne.importEach cache rest

/-- Evaluates the body of a module: its imports come first. -/
def ModuleBody.evaluate (body : ModuleBody) (importOne : Importer) (cache : ModuleCache) :
    Except ImportFault Unit × ModuleCache :=
  match importOne.importEach cache body.imports with
  | (.error fault, cache) => (.error fault, cache)
  | (.ok (), cache) =>
    match body.raised? with
    | some r => (.error (.raised r), cache)
    | none => (.ok (), cache)

/-- Keeps a loaded module as the latest one, and makes it an attribute of its package. -/
def ModuleCache.settle (cache : ModuleCache) (m : LoadedModule) (name : String)
    (outer : List String) : ModuleCache :=
  let key := dottedName (name :: outer)
  ModuleCache.bindChild (Table.insert key m (cache.erase key)) name outer

/-- A module once its body is evaluated: what it defines stands before the submodules that were
loaded meanwhile. -/
def ModuleCache.evaluated (cache : ModuleCache) (key : String) (origin : ModuleOrigin)
    (body : ModuleBody) : LoadedModule :=
  ⟨origin, body.attributes ++ ((cache.get? key).map LoadedModule.attributes).getD []⟩

/-- Loads a module that is not yet loaded, searching one directory. The module is known from before
its body is evaluated, and not kept if that fails; the modules that it has imported by then are. -/
def ModuleCache.loadFrom (cache : ModuleCache) (tree : Tree) (importOne : Importer)
    (directory : Location) (name : String) (outer : List String) :
    Except ImportFault LoadedModule × ModuleCache :=
  let key := dottedName (name :: outer)
  match searchModule tree directory name with
  | none => (.error (.noModule key), cache)
  | some origin =>
    match (origin.body tree).evaluate importOne (cache.insert key ⟨origin, []⟩) with
    | (.error fault, cache) => (.error fault, cache.erase key)
    | (.ok (), cache) =>
      let m := cache.evaluated key origin (origin.body tree)
      (.ok m, cache.settle m name outer)

/-- Imports the module whose name has these components, the last one first: first its package,
unless the module itself is loaded. -/
def ModuleCache.loadModule (cache : ModuleCache) (tree : Tree) (root : Location)
    (importOne : Importer) : List String → Except ImportFault LoadedModule × ModuleCache
  | [] => (.error .malformedName, cache)
  | name :: outer =>
    match cache.get? (dottedName (name :: outer)) with
    | some m => (.ok m, cache)
    | none =>
      if outer.isEmpty then cache.loadFrom tree importOne root name []
      else match cache.loadModule tree root importOne outer with
        | (.error fault, cache) => (.error fault, cache)
        | (.ok package, cache) =>
          -- the package may have imported the module itself
          match cache.get? (dottedName (name :: outer)) with
          | some m => (.ok m, cache)
          | none =>
            match package.origin with
            | .file _ =>
              (.error (.notPackage (dottedName (name :: outer)) (dottedName outer)), cache)
            | _ =>
              match cache.directoryOf tree root outer with
              | .error fault => (.error fault, cache)
              | .ok (directory, cache) => cache.loadFrom tree importOne directory name outer

def splitDots : List Char → List (List Char)
  | [] => [[]]
  | c :: rest =>
    if c = '.' then [] :: splitDots rest
    else match splitDots rest with
      | [] => [[c]]
      | name :: more => (c :: name) :: more

/-- The components of a dotted name, the last one first. -/
def componentsOf (name : String) : List String :=
  ((splitDots name.toList).map String.ofList).reverse

/-- Imports a module by its name; no more than `depth` modules are evaluated within each other. -/
def ModuleCache.importWithin (tree : Tree) (root : Location) : Nat → Importer
  | 0, cache, _ => (.error .nestedTooDeep, cache)
  | depth + 1, cache, name =>
    match name.toList with
    | [] | '.' :: _ => (.error .malformedName, cache)
    | _ => cache.loadModule tree root (importWithin tree root depth) (componentsOf name)

/-- A depth that is enough: every module that is evaluated within another is on the way to a name
that some file imports. -/
def Tree.importDepth (tree : Tree) : Nat :=
  ((Node.importNames tree).flatMap componentsOf).length + 2

def ModuleCache.importNamed (cache : ModuleCache) (tree : Tree) (root : Location)
    (name : String) : Except ImportFault LoadedModule × ModuleCache :=
  importWithin tree root tree.importDepth cache name

end SymbolExport
