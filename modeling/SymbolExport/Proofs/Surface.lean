import SymbolExport.Proofs.Place

/-!
What stands at the places of a tree, without the order of the entries, and what becomes of it when a
file or an empty directory is put somewhere.
-/
namespace SymbolExport

/-- The bytes and the body of a file. -/
def Node.file? : Node → Option (List UInt8 × ModuleBody)
  | .file content body => some (content, body)
  | _ => none

/-- Nothing stands below a file or an empty directory. -/
def Node.IsLeaf (node : Node) : Prop :=
  ∀ name, node.entry? name = none

/-- What stands at a place: nothing, a directory, or a file with its bytes and body. -/
def Tree.surface (tree : Tree) (place : Location) : Option (Option (List UInt8 × ModuleBody)) :=
  (tree.at? place).map Node.file?

/-- The body of the file at a place, an empty one if there is no file. -/
def Tree.bodyAt (tree : Tree) (place : Location) : ModuleBody :=
  match tree.surface place with
  | some (some (_, body)) => body
  | _ => {}

variable {tree : Tree} {node new : Node} {entries : List (String × Node)} {name : String}
  {front back place q : Location} {content : List UInt8} {body : ModuleBody}

namespace Node

theorem isLeaf_empty : empty.IsLeaf := fun _ => rfl

theorem isLeaf_file : (file content body).IsLeaf := fun _ => rfl

theorem IsLeaf.at?_eq_none (h : node.IsLeaf) (hne : place ≠ []) : node.at? place = none := by
  obtain ⟨name, rest, rfl⟩ := List.exists_cons_of_ne_nil hne
  rw [at?, h name]
  rfl

theorem at?_append_eq_none (h : ∀ old, node.at? front = some old → old.IsLeaf) (hne : back ≠ []) :
    node.at? (front ++ back) = none := by
  rw [at?_append]
  cases ha : node.at? front with
  | none => rfl
  | some old => exact (h old ha).at?_eq_none hne

theorem put_cons (entries : List (String × Node)) (name : String) (rest : Location) :
    (directory entries).put new (name :: rest) =
      directory (Table.insert name (((Table.get? entries name).getD empty).put new rest) entries) :=
  rfl

theorem at?_insert (name : String) (v : Node) (first : String) (rest : Location) :
    (directory (Table.insert name v entries)).at? (first :: rest) =
      if first = name then v.at? rest else (directory entries).at? (first :: rest) := by
  by_cases h : first = name
  · subst h
    simp [at?, entry?]
  · simp [at?, entry?, h, Table.get?_insert_of_ne h]

/-- Above its place a put changes a node as if it stood alone. -/
theorem at?_put_front (h : tree.at? front = some node) (new : Node) (back : Location) :
    (tree.put new (front ++ back)).at? front = some (node.put new back) := by
  induction front generalizing tree with
  | nil =>
    obtain rfl : tree = node := by simpa [at?] using h
    rfl
  | cons first front ih =>
    obtain ⟨child, hc, hr⟩ := Option.bind_eq_some_iff.mp h
    cases tree with
    | directory entries =>
      rw [List.cons_append, put_cons, at?_insert, if_pos rfl]
      simp only [Node.entry?] at hc
      rw [hc]
      exact ih hr
    | file | link => simp [Node.entry?] at hc

/-- What is put in its own place changes nothing. -/
theorem put_of_at? (h : tree.at? place = some new) : tree.put new place = tree := by
  induction place generalizing tree with
  | nil =>
    obtain rfl : tree = new := by simpa [at?] using h
    rfl
  | cons first rest ih =>
    obtain ⟨child, hc, hr⟩ := Option.bind_eq_some_iff.mp h
    cases tree with
    | directory entries =>
      simp only [Node.entry?] at hc
      rw [put_cons, hc, Option.getD_some, ih hr, Table.insert_of_get? hc]
    | file | link => simp [Node.entry?] at hc

end Node

namespace Tree

theorem surface_eq_none_iff : tree.surface place = none ↔ tree.at? place = none := by
  simp [surface]

theorem surface_eq_file_iff :
    tree.surface place = some (some (content, body)) ↔
      tree.at? place = some (.file content body) := by
  rw [surface, Option.map_eq_some_iff]
  constructor
  · rintro ⟨node, ha, hs⟩
    cases node <;> simp_all [Node.file?]
  · intro ha
    exact ⟨_, ha, rfl⟩

theorem surface_eq_directory_iff (h : tree.isLinkFree) :
    tree.surface place = some none ↔ tree.HasDirectoryAt place := by
  rw [surface, Option.map_eq_some_iff]
  constructor
  · rintro ⟨node, ha, hs⟩
    cases node with
    | directory entries => exact ⟨entries, ha⟩
    | link target => exact absurd ha (Node.at?_ne_link h place target)
    | file => cases hs
  · rintro ⟨entries, ha⟩
    exact ⟨_, ha, rfl⟩

theorem bodyAt_of_at?_eq_none (h : tree.at? place = none) : tree.bodyAt place = {} := by
  simp [bodyAt, surface_eq_none_iff.mpr h]

theorem bodyAt_of_surface (h : tree.surface place = some (some (content, body))) :
    tree.bodyAt place = body := by
  simp [bodyAt, h]

/-- A leaf that is put over nothing or over a leaf changes what stands at its own place only. -/
theorem surface_put (hd : tree.HasDirectoryAt front) (hnew : new.IsLeaf)
    (hold : ∀ old, tree.at? (front ++ [name]) = some old → old.IsLeaf) (q : Location) :
    surface (tree.put new (front ++ [name])) q =
      if q = front ++ [name] then some new.file? else tree.surface q := by
  induction front generalizing tree q with
  | nil =>
    obtain ⟨entries, hd⟩ := hd
    obtain rfl : tree = .directory entries := by simpa [Node.at?] using hd
    rw [List.nil_append, Node.put_cons]
    cases q with
    | nil => rfl
    | cons first rest =>
      simp only [surface, Node.at?_insert, Node.put]
      by_cases hf : first = name
      · subst hf
        rw [if_pos rfl]
        by_cases hr : rest = []
        · subst hr
          simp [Node.at?]
        · have hbelow : (Node.directory entries).at? ([first] ++ rest) = none :=
            Node.at?_append_eq_none hold hr
          rw [List.singleton_append] at hbelow
          simp [hr, hnew.at?_eq_none hr, hbelow]
      · simp [hf]
  | cons first front ih =>
    obtain ⟨entries, hd⟩ := hd
    obtain ⟨child, hc, hr⟩ := Option.bind_eq_some_iff.mp hd
    cases tree with
    | file | link => simp [Node.entry?] at hc
    | directory siblings =>
      simp only [Node.entry?] at hc
      rw [List.cons_append, Node.put_cons, hc]
      have hbelow : ∀ rest, (Node.directory siblings).at? (first :: rest) = child.at? rest := by
        intro rest
        simp [Node.at?, Node.entry?, hc]
      cases q with
      | nil => rfl
      | cons n rest =>
        simp only [surface, Node.at?_insert, Option.getD_some]
        by_cases hn : n = first
        · -- both lead into the same child, where the rest of the front leads on
          subst hn
          rw [if_pos rfl, hbelow]
          have := ih ⟨entries, hr⟩ (fun old ha => hold old (by simpa [hbelow] using ha)) rest
          simpa [surface] using this
        · simp [hn]

end Tree

end SymbolExport
