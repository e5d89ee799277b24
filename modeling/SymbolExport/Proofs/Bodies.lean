import SymbolExport.Cleanup
import SymbolExport.Proofs.LinkFree

/-!
What the files of a tree hold to be evaluated. Puts and removals bring nothing but what is put, so a
property of all bodies lasts as long as it holds of what is written.
-/
namespace SymbolExport

namespace Node

variable {tree node new : Node} {entries : List (String × Node)} {body : ModuleBody}
  {place : Location} {name : String}

theorem mem_bodiesIn_iff : body ∈ bodiesIn entries ↔ ∃ entry ∈ entries, body ∈ entry.2.bodies := by
  induction entries with
  | nil => simp [bodiesIn]
  | cons entry rest ih => simp [bodiesIn, ih]

theorem mem_bodies_of_get? (hg : Table.get? entries name = some node) (h : body ∈ node.bodies) :
    body ∈ (directory entries).bodies := by
  rw [bodies, mem_bodiesIn_iff]
  exact ⟨_, Table.mem_of_get? hg, h⟩

theorem mem_bodies_of_at? (ha : tree.at? place = some node) (h : body ∈ node.bodies) :
    body ∈ tree.bodies := by
  induction place generalizing tree with
  | nil =>
    have he : tree = node := by simpa [at?] using ha
    exact he ▸ h
  | cons name rest ih =>
    obtain ⟨child, hc, hr⟩ := Option.bind_eq_some_iff.mp ha
    cases tree with
    | directory entries => exact mem_bodies_of_get? hc (ih hr)
    | file | link => simp [ entry?] at hc

theorem mem_bodies_put (h : body ∈ (tree.put new place).bodies) :
    body ∈ tree.bodies ∨ body ∈ new.bodies := by
  induction place generalizing tree with
  | nil => exact Or.inr h
  | cons name rest ih =>
    cases tree with
    | file | link => exact Or.inl h
    | directory entries =>
      rw [put, bodies, mem_bodiesIn_iff] at h
      obtain ⟨entry, hentry, hbody⟩ := h
      rcases Table.mem_insert hentry with rfl | hentry
      · refine (ih hbody).imp_left fun hchild => ?_
        cases hg : Table.get? entries name with
        | none => simp [hg, empty, bodies, bodiesIn] at hchild
        | some child =>
          rw [hg] at hchild
          exact mem_bodies_of_get? hg hchild
      · exact Or.inl (by rw [bodies, mem_bodiesIn_iff]; exact ⟨entry, hentry, hbody⟩)

theorem mem_bodies_remove (h : body ∈ (tree.remove place).bodies) : body ∈ tree.bodies := by
  fun_induction remove tree place with
  | case1 => simp [empty, bodies, bodiesIn] at h
  | case2 name entries =>
    rw [bodies, mem_bodiesIn_iff] at h ⊢
    obtain ⟨entry, hentry, hbody⟩ := h
    exact ⟨entry, List.mem_of_mem_filter hentry, hbody⟩
  | case4 name rest _ entries child hg ih =>
    rw [bodies, mem_bodiesIn_iff] at h
    obtain ⟨entry, hentry, hbody⟩ := h
    rcases Table.mem_insert hentry with rfl | hentry
    · exact mem_bodies_of_get? hg (ih hbody)
    · rw [bodies, mem_bodiesIn_iff]
      exact ⟨entry, hentry, hbody⟩
  | case3 | case5 | case6 => exact h

/-- No module defines the attribute by which it tells its file. -/
def TellsOwnFiles (node : Node) : Prop :=
  ∀ body ∈ node.bodies, body.attributes.get? fileAttribute = none

theorem tellsOwnFiles_file_iff {content : List UInt8} :
    (file content body).TellsOwnFiles ↔ body.attributes.get? fileAttribute = none := by
  simp [TellsOwnFiles, bodies]

theorem tellsOwnFiles_directory_iff :
    (directory entries).TellsOwnFiles ↔ ∀ entry ∈ entries, entry.2.TellsOwnFiles := by
  simp only [TellsOwnFiles, bodies, mem_bodiesIn_iff]
  exact ⟨fun h entry he body hb => h body ⟨entry, he, hb⟩,
    fun h body ⟨entry, he, hb⟩ => h entry he body hb⟩

theorem TellsOwnFiles.put (h : tree.TellsOwnFiles) (hn : new.TellsOwnFiles) (place : Location) :
    (tree.put new place).TellsOwnFiles :=
  fun body hb => (mem_bodies_put hb).elim (h body) (hn body)

theorem TellsOwnFiles.remove (h : tree.TellsOwnFiles) (place : Location) :
    (tree.remove place).TellsOwnFiles :=
  fun body hb => h body (mem_bodies_remove hb)

end Node

/-- What a module is evaluated to is the body of some file, or nothing. -/
theorem ModuleOrigin.body_mem_bodies (tree : Tree) (origin : ModuleOrigin) :
    origin.body tree = {} ∨ origin.body tree ∈ Node.bodies tree := by
  unfold ModuleOrigin.body
  split
  · rename_i content body hs
    obtain ⟨place, -, hstat⟩ := Option.map_eq_some_iff.mp hs
    right
    simp only [Tree.stat, bind, Except.bind] at hstat
    split at hstat
    · cases hstat
    · split at hstat
      · rename_i node ha
        cases hstat
        exact Node.mem_bodies_of_at? ha (by simp [Node.bodies])
      · cases hstat
  · exact Or.inl rfl

end SymbolExport
