import SymbolExport.Proofs.Surface

/-!
Directories as a system lists them. The entries of a directory have names of their own, and in which
order they are listed says nothing of what stands where.
-/
namespace SymbolExport

namespace Table

variable {α : Type} {t others : Table α} {name : String} {value : α}

theorem get?_eq_some_iff (h : t.names.Nodup) : t.get? name = some value ↔ (name, value) ∈ t := by
  refine ⟨mem_of_get?, fun hm => ?_⟩
  have hname : name ∈ t.names := List.mem_map_of_mem hm
  rw [← has_iff_mem_names, has_eq_isSome, Option.isSome_iff_exists] at hname
  obtain ⟨found, hfound⟩ := hname
  have hpair := List.inj_on_of_nodup_map h (mem_of_get? hfound) hm rfl
  rw [hfound, (Prod.mk.inj hpair).2]

theorem get?_perm (hperm : others.Perm t) (h : t.names.Nodup) (name : String) :
    others.get? name = t.get? name := by
  have hothers : others.names.Nodup := (hperm.map Prod.fst).nodup_iff.mpr h
  refine Option.ext fun value => ?_
  rw [get?_eq_some_iff h, get?_eq_some_iff hothers, hperm.mem_iff]

theorem get?_map (f : String × α → α) (t : Table α) (name : String) :
    get? (t.map fun entry => (entry.1, f entry)) name =
      (t.get? name).map fun value => f (name, value) := by
  induction t with
  | nil => rfl
  | cons entry rest ih =>
    by_cases hn : entry.1 = name
    · subst hn
      simp [get?]
    · simpa [get?, hn] using ih

end Table

namespace Node

/-- In every directory each entry has a name of its own, which is not that of the parent. -/
inductive IsWellNamed : Node → Prop
  | file (content : List UInt8) (body : ModuleBody) : IsWellNamed (file content body)
  | link (target : String) : IsWellNamed (link target)
  | directory {entries : List (String × Node)} (nodup : (Table.names entries).Nodup)
      (parent : ".." ∉ Table.names entries) (inside : ∀ entry ∈ entries, entry.2.IsWellNamed) :
      IsWellNamed (directory entries)

/-- The same node, with the entries of any directories in another order. -/
inductive Relisted : Node → Node → Prop
  | file (content : List UInt8) (body : ModuleBody) :
      Relisted (file content body) (file content body)
  | link (target : String) : Relisted (link target) (link target)
  | directory {entries others : List (String × Node)} (inner : String × Node → Node)
      (inside : ∀ entry ∈ entries, entry.2.Relisted (inner entry))
      (perm : others.Perm (entries.map fun entry => (entry.1, inner entry))) :
      Relisted (directory entries) (directory others)

variable {node other child tree : Node} {place : Location} {name : String}

theorem IsWellNamed.at? (h : tree.IsWellNamed) (ha : tree.at? place = some node) :
    node.IsWellNamed ∧ ".." ∉ place := by
  induction place generalizing tree with
  | nil =>
    obtain rfl : tree = node := by simpa [Node.at?] using ha
    exact ⟨h, List.not_mem_nil⟩
  | cons name rest ih =>
    obtain ⟨child, hc, hr⟩ := Option.bind_eq_some_iff.mp ha
    cases h with
    | file | link => simp [ entry?] at hc
    | directory nodup parent inside =>
      have hm := Table.mem_of_get? hc
      obtain ⟨hnode, hrest⟩ := ih (inside _ hm) hr
      have hname : ".." ≠ name := by
        rintro rfl
        exact parent (List.mem_map_of_mem hm)
      exact ⟨hnode, by simp [hname, hrest]⟩

namespace Relisted

/-- Every node is listed in its own order. -/
theorem refl (h : node.IsWellNamed) : node.Relisted node := by
  induction h with
  | file content body => exact .file content body
  | link target => exact .link target
  | directory nodup parent inside ih => exact .directory Prod.snd ih (by simp)

theorem isWellNamed (h : node.Relisted other) (hn : node.IsWellNamed) : other.IsWellNamed := by
  induction h with
  | file | link => exact hn
  | @directory entries others inner inside perm ih =>
    cases hn with
    | directory nodup parent hinside =>
      have hnames : (Table.names others).Perm (Table.names entries) := by
        simpa [Table.names, Function.comp_def] using perm.map Prod.fst
      refine .directory (hnames.nodup_iff.mpr nodup) (fun hm => parent (hnames.mem_iff.mp hm)) ?_
      intro entry hm
      obtain ⟨old, hold, rfl⟩ := List.mem_map.mp (perm.mem_iff.mp hm)
      exact ih old hold (hinside old hold)

theorem isLinkFree (h : node.Relisted other) (hl : node.isLinkFree) : other.isLinkFree := by
  induction h with
  | file | link => exact hl
  | directory inner inside perm ih =>
    rw [Node.isLinkFree, areLinkFree_iff] at hl ⊢
    intro entry hm
    obtain ⟨old, hold, rfl⟩ := List.mem_map.mp (perm.mem_iff.mp hm)
    exact ih old hold (hl old hold)

/-- The order of the entries does not say what stands where. -/
theorem surface_eq (h : node.Relisted other) (hn : node.IsWellNamed) (place : Location) :
    Tree.surface other place = Tree.surface node place := by
  induction h generalizing place with
  | file | link => rfl
  | @directory entries others inner inside perm ih =>
    cases hn with
    | directory nodup parent hinside =>
      cases place with
      | nil => rfl
      | cons name rest =>
        have hnames : (Table.names (entries.map fun entry => (entry.1, inner entry))).Nodup := by
          simpa [Table.names, Function.comp_def] using nodup
        have hget := Table.get?_perm perm hnames name
        rw [Table.get?_map] at hget
        simp only [Tree.surface, Node.at?, entry?, hget]
        cases hentry : Table.get? entries name with
        | none => rfl
        | some child =>
          have hm := Table.mem_of_get? hentry
          exact ih (name, child) hm (hinside _ hm) rest

end Relisted

end Node

namespace Tree

variable {tree other : Tree}

theorem hasFileAt_iff_surface {place : Location} :
    tree.HasFileAt place ↔ ∃ content body, tree.surface place = some (some (content, body)) := by
  simp only [HasFileAt, surface_eq_file_iff]

theorem hasFileAt_relisted (h : tree.Relisted other) (hn : tree.IsWellNamed) (place : Location) :
    HasFileAt other place ↔ tree.HasFileAt place := by
  simp only [hasFileAt_iff_surface, h.surface_eq hn]

theorem hasDirectoryAt_relisted (h : tree.Relisted other) (hl : tree.isLinkFree)
    (hn : tree.IsWellNamed) (place : Location) :
    HasDirectoryAt other place ↔ tree.HasDirectoryAt place := by
  rw [← surface_eq_directory_iff hl, ← surface_eq_directory_iff (h.isLinkFree hl),
    h.surface_eq hn]

/-- A path leads to a directory however the entries are listed. -/
theorem isDirectory_relisted (h : tree.Relisted other) (hl : tree.isLinkFree)
    (hn : tree.IsWellNamed) (cwd : Location) (p : Path) :
    isDirectory other cwd p ↔ tree.isDirectory cwd p := by
  simp only [isDirectory_iff hl, isDirectory_iff (h.isLinkFree hl), IsPassable,
    hasDirectoryAt_relisted h hl hn]

end Tree

end SymbolExport
