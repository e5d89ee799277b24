import SymbolExport.Import
import Mathlib

/-! Trees without links: names alone decide where a path leads. -/
namespace SymbolExport

namespace Node

mutual

/-- No link stands anywhere in the tree. -/
def isLinkFree : Node → Bool
  | file .. => true
  | link _ => false
  | directory entries => areLinkFree entries

def areLinkFree : List (String × Node) → Bool
  | [] => true
  | (_, node) :: rest => isLinkFree node && areLinkFree rest

end

variable {tree node new : Node} {entries : List (String × Node)}

theorem areLinkFree_iff : areLinkFree entries ↔ ∀ entry ∈ entries, entry.2.isLinkFree := by
  induction entries with
  | nil => simp [areLinkFree]
  | cons entry rest ih => simp [areLinkFree, ih]

theorem isLinkFree_empty : empty.isLinkFree := rfl

theorem isLinkFree_get? (h : (directory entries).isLinkFree) {name : String}
    (hg : Table.get? entries name = some node) : node.isLinkFree := by
  rw [isLinkFree, areLinkFree_iff] at h
  exact h _ (Table.mem_of_get? hg)

theorem isLinkFree_insert (h : (directory entries).isLinkFree) (hn : new.isLinkFree)
    (name : String) : (directory (Table.insert name new entries)).isLinkFree := by
  rw [isLinkFree, areLinkFree_iff] at h ⊢
  intro entry he
  rcases Table.mem_insert he with rfl | he
  · exact hn
  · exact h entry he

theorem isLinkFree_at? (h : tree.isLinkFree) {place : Location}
    (ha : tree.at? place = some node) : node.isLinkFree := by
  induction place generalizing tree with
  | nil =>
    have he : tree = node := by simpa [at?] using ha
    exact he ▸ h
  | cons name rest ih =>
    obtain ⟨child, hc, hr⟩ := Option.bind_eq_some_iff.mp ha
    cases tree with
    | directory entries => exact ih (isLinkFree_get? h hc) hr
    | file | link => simp [ entry?] at hc

theorem at?_ne_link (h : tree.isLinkFree) (place : Location) (target : String) :
    tree.at? place ≠ some (.link target) := by
  intro ha
  simpa [isLinkFree] using isLinkFree_at? h ha

theorem isLinkFree_put (h : tree.isLinkFree) (hn : new.isLinkFree) (place : Location) :
    (tree.put new place).isLinkFree := by
  induction place generalizing tree with
  | nil => exact hn
  | cons name rest ih =>
    cases tree with
    | file | link => exact h
    | directory entries =>
      refine isLinkFree_insert h (ih ?_) name
      cases hg : Table.get? entries name with
      | none => exact isLinkFree_empty
      | some child => exact isLinkFree_get? h hg

theorem isLinkFree_remove (h : tree.isLinkFree) (place : Location) :
    (tree.remove place).isLinkFree := by
  fun_induction remove tree place with
  | case1 => exact isLinkFree_empty
  | case2 name entries =>
    rw [isLinkFree, areLinkFree_iff] at h ⊢
    exact fun entry he => h entry (List.mem_of_mem_filter he)
  | case4 name rest _ entries child hg ih =>
    exact isLinkFree_insert h (ih (isLinkFree_get? h hg)) name
  | case3 | case5 | case6 => exact h

end Node

theorem normalize_of_notMem {names : List String} (h : ".." ∉ names) (place : Location) :
    normalize place names = place ++ names := by
  induction names generalizing place with
  | nil => simp [normalize]
  | cons name rest ih =>
    obtain ⟨hn, hr⟩ := not_or.mp (mt List.mem_cons.mpr h)
    simp [normalize, Ne.symm hn, ih hr]

theorem parent_notMem_normalize {place : Location} (h : ".." ∉ place) (names : List String) :
    ".." ∉ normalize place names := by
  induction names generalizing place with
  | nil => exact h
  | cons name rest ih =>
    unfold normalize
    split
    · exact ih (mt (fun hm => List.dropLast_subset place hm) h)
    · rename_i hn
      exact ih (by simp [h, Ne.symm hn])

namespace Tree

variable {tree : Tree}

theorem follow_eq (h : tree.isLinkFree) (depth : Nat) (pending : List Location) (here : Location)
    (names : List String) : tree.follow depth pending here names = .ok (normalize here names) := by
  induction names generalizing here with
  | nil => simp [follow, normalize]
  | cons name rest ih =>
    rw [follow, normalize]
    by_cases hn : name = ".."
    · simp only [hn, if_true]
      exact ih _
    · simp only [hn, if_false]
      split
      · rename_i target ha
        exact absurd ha (Node.at?_ne_link h _ target)
      · exact ih _

theorem resolve_eq (h : tree.isLinkFree) (cwd : Location) (p : Path) :
    tree.resolve cwd p = .ok (normalize (if p.isAbsolute then [] else cwd) p.parts) := by
  simp [resolve, follow_eq h]

theorem realPlace_eq (h : tree.isLinkFree) {place : Location} (hp : ".." ∉ place) :
    tree.realPlace [] (.ofLocation place) = place := by
  simp [realPlace, resolve_eq h, Path.ofLocation, normalize_of_notMem hp]

end Tree

end SymbolExport
