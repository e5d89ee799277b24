import SymbolExport.Class

/-!
The lookup order of a class: every class comes before its ancestors, and the bases of each class
keep their order. There is none if these demands contradict each other.
-/
namespace SymbolExport

/-- The first head that stands in no tail. -/
def nextLevel? (sequences : List (List ClassLevel)) : Option ClassLevel :=
  (sequences.filterMap List.head?).find? fun level =>
    sequences.all fun sequence => !level.isAmong sequence.tail

def dropHead (level : ClassLevel) (sequence : List ClassLevel) : List ClassLevel :=
  match sequence with
  | [] => []
  | l :: rest => if l.serial = level.serial then rest else sequence

/-- Merges sequences, keeping the order of each; `fuel` bounds the length of the result. -/
def mergeLevels (fuel : Nat) (sequences : List (List ClassLevel)) : Option (List ClassLevel) :=
  if sequences.all List.isEmpty then some []
  else match fuel with
    | 0 => none
    | fuel + 1 => do
      let level ← nextLevel? sequences
      let rest ← mergeLevels fuel (sequences.map (dropHead level))
      return level :: rest

/-- The ancestors of a class with these bases. -/
def linearize? (bases : List Class) : Option (List ClassLevel) :=
  let sequences := bases.map Class.lineage ++ [bases.map Class.level]
  mergeLevels sequences.flatten.length sequences

end SymbolExport
