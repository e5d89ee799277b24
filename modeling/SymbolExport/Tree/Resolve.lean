import SymbolExport.Tree

/-!
Resolving a path: links are replaced by their targets and `..` goes back one name, whether or not
the path exists. A link that leads back to itself is left as it is.
-/
namespace SymbolExport.Tree

/-- A loop of links: `stuck` is the place of the link that is met again, followed by the names that
were still to come. -/
structure LinkLoop where
  stuck : List String

/-- Follows names from a place. `pending` are the links under way; no more than `depth` of them are
entered. -/
def follow (tree : Tree) (depth : Nat) (pending : List Location) (here : Location) :
    List String → Except LinkLoop Location
  | [] => .ok here
  | name :: rest =>
    if name = ".." then follow tree depth pending here.dropLast rest
    else match tree.at? (here ++ [name]) with
      | some (.link target) =>
        match depth with
        | 0 => .error ⟨here ++ name :: rest⟩
        | depth + 1 =>
          if (here ++ [name]) ∈ pending then .error ⟨here ++ name :: rest⟩
          else
            let goal := Path.ofString target
            let start := if goal.isAbsolute then [] else here
            match follow tree depth ((here ++ [name]) :: pending) start goal.parts with
            | .ok place => follow tree (depth + 1) pending place rest
            | .error loop => .error ⟨loop.stuck ++ rest⟩
      | _ => follow tree depth pending (here ++ [name]) rest
termination_by names => (depth, names.length)

/-- The greatest depth of links within links. -/
def maxDepth : Nat := 256

/-- The place that a path names, or the path of a loop of links that the system cannot pass. -/
def resolve (tree : Tree) (cwd : Location) (p : Path) : Except Path Location :=
  match follow tree maxDepth [] (if p.isAbsolute then [] else cwd) p.parts with
  | .ok place => .ok place
  | .error loop =>
    let place := normalize [] loop.stuck
    match tree.stat [] (.ofLocation place) with
    | .error .tooManyLinks => .error (.ofLocation place)
    | _ => .ok place

/-- As `resolve`, for a path that is known to exist. -/
def realPlace (tree : Tree) (cwd : Location) (p : Path) : Location :=
  match tree.resolve cwd p with
  | .ok place => place
  | .error stuck => stuck.parts

end SymbolExport.Tree
