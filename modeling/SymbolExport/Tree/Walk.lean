import SymbolExport.Tree.Resolve

/-!
The source files below a directory: in each directory its own files by name, then what its
subdirectories hold, by name. Hidden directories and caches are left out, and linked ones are not
entered.
-/
namespace SymbolExport

/-- Directories of caches. -/
def cacheDirectories : List String :=
  ["__pycache__", ".pytest_cache", ".mypy_cache"]

def isEntered (directory : String) : Bool :=
  directory ∉ cacheDirectories && directory.toList.head? != some '.'

def sortByName {α : Type} (entries : List (String × α)) : List (String × α) :=
  entries.mergeSort fun a b => a.1 ≤ b.1

namespace Node

mutual

/-- All entries below a directory that are no directories, each with its name and place. -/
def filesBelow (here : Location) : Node → List (String × Location)
  | directory entries =>
    (sortByName (entries.filter fun entry => !entry.2.isDirectory)).map
        (fun entry => (entry.1, here ++ [entry.1])) ++
      ((sortByName (filesInside here entries)).map Prod.snd).flatten
  | _ => []

/-- For each entered directory among the entries its name and what is below it. -/
def filesInside (here : Location) :
    List (String × Node) → List (String × List (String × Location))
  | [] => []
  | (name, node) :: rest =>
    if isEntered name then (name, filesBelow (here ++ [name]) node) :: filesInside here rest
    else filesInside here rest

end

end Node

/-- A source file found by a walk. -/
structure SourceUnit where
  path : Location
  extension : String
  deriving DecidableEq, Repr

/-- The units below a directory: files, also linked ones, whose name ends in the extension. -/
def sourceUnits (tree : Tree) (root : Location) (extension : String) : List SourceUnit :=
  match tree.at? root with
  | some node =>
    (node.filesBelow root).filterMap fun (name, place) =>
      if Path.suffixOf name = extension && tree.isFile [] (.ofLocation place) then
        some ⟨tree.realPlace [] (.ofLocation place), extension⟩
      else none
  | none => []

end SymbolExport
