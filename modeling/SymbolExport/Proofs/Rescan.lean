import SymbolExport.Proofs.Writing

/-!
Trees with the same sources. Where nothing but other files and new directories has come, a walk
finds the same files, and the modules that are named after them are imported as before.
-/
namespace SymbolExport

namespace Node

variable {node new : Node} {place q : Location}

/-- A put changes nothing beside its place and the way to it. -/
theorem at?_put_of_not_prefix (new : Node) (h : ¬ q <+: place) (h' : ¬ place <+: q) :
    (node.put new place).at? q = node.at? q := by
  induction place generalizing node q with
  | nil => exact absurd List.nil_prefix h'
  | cons name rest ih =>
    cases q with
    | nil => exact absurd List.nil_prefix h
    | cons first q =>
      cases node with
      | file | link => rfl
      | directory entries =>
        rw [put_cons, at?_insert]
        split
        · rename_i hn
          subst hn
          rw [List.cons_prefix_cons] at h h'
          rw [ih (fun hp => h ⟨rfl, hp⟩) (fun hp => h' ⟨rfl, hp⟩)]
          cases hg : Table.get? entries first with
          | none =>
            have hne : q ≠ [] := by
              rintro rfl
              exact h ⟨rfl, List.nil_prefix⟩
            simp [at?, entry?, hg, isLeaf_empty.at?_eq_none hne]
          | some child => simp [at?, entry?, hg]
        · rfl

variable {entries : List (String × Node)}

theorem importNames_directory (entries : List (String × Node)) :
    (directory entries).importNames = entries.flatMap fun entry => entry.2.importNames := by
  rw [importNames, bodies]
  induction entries with
  | nil => rfl
  | cons entry rest ih =>
    rw [bodiesIn, List.flatMap_append, ih, List.flatMap_cons]
    rfl

/-- A put brings no imports if it takes away the ones that it puts there. -/
theorem importNames_put (h : new.importNames = ((node.at? place).map importNames).getD []) :
    (node.put new place).importNames = node.importNames := by
  induction place generalizing node with
  | nil => exact h
  | cons name rest ih =>
    cases node with
    | file | link => rfl
    | directory entries =>
      rw [put_cons, importNames_directory, importNames_directory]
      apply Table.flatMap_insert
      cases hg : Table.get? entries name with
      | some child =>
        rw [Option.getD_some, ih (by simpa [at?, entry?, hg] using h)]
        rfl
      | none =>
        have hnone : new.importNames = [] := by simpa [at?, entry?, hg] using h
        have hempty : empty.importNames = [] := rfl
        rw [Option.getD_none, ih, hempty]
        · rfl
        · rw [hnone]
          by_cases hr : rest = []
          · subst hr
            rfl
          · rw [isLeaf_empty.at?_eq_none hr]
            rfl

end Node

namespace Tree

/-- The later tree has the sources of the earlier one, and its directories with the same sources
below them. Each file is evaluated as before, and nothing else is. -/
structure SameSources (before after : Tree) : Prop where
  file : ∀ {directory : Location} {name content body}, isSourceName name →
    (after.at? (directory ++ [name]) = some (.file content body) ↔
      before.at? (directory ++ [name]) = some (.file content body))
  directory : ∀ {place node}, before.at? place = some node → node.isDirectory →
    ∃ node', after.at? place = some node' ∧ node'.isDirectory ∧
      node'.sourcesBelow place = node.sourcesBelow place
  body : ∀ place, after.bodyAt place = before.bodyAt place
  importNames : Node.importNames after = Node.importNames before

variable {before middle after tree : Tree} {place directory front : Location} {name : String}
  {new : Node}

theorem SameSources.refl (tree : Tree) : tree.SameSources tree where
  file _ := Iff.rfl
  directory ha hd := ⟨_, ha, hd, rfl⟩
  body _ := rfl
  importNames := rfl

theorem SameSources.trans (h : before.SameSources middle) (h' : middle.SameSources after) :
    before.SameSources after where
  file hn := (h'.file hn).trans (h.file hn)
  directory ha hd := by
    obtain ⟨node, ha, hd, hs⟩ := h.directory ha hd
    obtain ⟨node', ha', hd', hs'⟩ := h'.directory ha hd
    exact ⟨node', ha', hd', hs'.trans hs⟩
  body place := (h'.body place).trans (h.body place)
  importNames := h'.importNames.trans h.importNames

theorem sourcesBelow_file (here : Location) (content : List UInt8) (body : ModuleBody) :
    (Node.file content body).sourcesBelow here = [] := by
  simp [Node.sourcesBelow, Node.filesBelow]

section

variable (hnew : ¬ new.isSource name)
  (hold : ∀ old, tree.at? (front ++ [name]) = some old →
    (∃ content body, old = .file content body) ∧ ¬ isSourceName name)

include hnew hold

/-- No source comes or goes when a leaf that is none is put over nothing, or over a file that is
none. -/
theorem at?_put_source_iff (hleaf : new.IsLeaf) (hd : tree.HasDirectoryAt front) {other : String}
    {content : List UInt8} {body : ModuleBody} (hother : isSourceName other) :
    Node.at? (tree.put new (front ++ [name])) (directory ++ [other]) = some (.file content body) ↔
      tree.at? (directory ++ [other]) = some (.file content body) := by
  have holdLeaf : ∀ old, tree.at? (front ++ [name]) = some old → old.IsLeaf := by
    intro old ha
    obtain ⟨⟨content, body, rfl⟩, -⟩ := hold old ha
    exact Node.isLeaf_file
  rw [← surface_eq_file_iff, ← surface_eq_file_iff, surface_put hd hleaf holdLeaf]
  split
  · -- no source stands in the place of the put, neither before nor after
    rename_i hplace
    obtain ⟨-, rfl⟩ : directory = front ∧ other = name := by simpa using hplace
    constructor
    · intro hfile
      cases new with
      | file => exact absurd hother (by simpa [Node.isSource, Node.isDirectory] using hnew)
      | link | directory => simp [Node.file?] at hfile
    · intro hfile
      rw [hplace, surface_eq_file_iff] at hfile
      exact absurd hother (hold _ hfile).2
  · rfl

/-- The directories stay, with their sources. -/
theorem directory_put (hbelow : new.sourcesBelow (front ++ [name]) = []) {node : Node}
    (ha : tree.at? place = some node) (hnode : node.isDirectory) :
    ∃ node', Node.at? (tree.put new (front ++ [name])) place = some node' ∧ node'.isDirectory ∧
      node'.sourcesBelow place = node.sourcesBelow place := by
  by_cases hp : place <+: front ++ [name]
  · -- the put is made below the directory, so it is a put into its node
    obtain ⟨back, hback⟩ := hp
    have hinner : node.at? back = tree.at? (front ++ [name]) := by
      rw [← hback, Node.at?_append, ha, Option.bind_some]
    have hne : back ≠ [] := by
      rintro rfl
      obtain ⟨⟨content, body, rfl⟩, -⟩ := hold node hinner.symm
      cases hnode
    have hlast : back.getLast hne = name := by
      have := congrArg List.getLast? hback
      rw [List.getLast?_append_of_ne_nil _ hne, List.getLast?_concat,
        List.getLast?_eq_some_getLast hne] at this
      exact Option.some.inj this
    have hnone : ¬ ((node.at? back).getD .empty).isSource name ∧
        ((node.at? back).getD .empty).sourcesBelow (place ++ back) = [] := by
      rw [hinner]
      cases hat : tree.at? (front ++ [name]) with
      | none => exact ⟨by simp [Node.isSource, Node.empty, Node.isDirectory],
          Node.sourcesBelow_empty _⟩
      | some old =>
        obtain ⟨⟨content, body, rfl⟩, hn⟩ := hold old hat
        exact ⟨by simp [Node.isSource, hn], sourcesBelow_file _ _ _⟩
    obtain ⟨hdirectory, hsources⟩ := Node.sourcesBelow_put hne
      (by rw [hlast, Bool.eq_false_iff.mpr hnew, Bool.eq_false_iff.mpr hnone.1])
      (by rw [hnone.2, hback, hbelow])
    refine ⟨node.put new back, ?_, hdirectory.trans hnode, hsources⟩
    rw [← hback]
    exact Node.at?_put_front ha new back
  · refine ⟨node, ?_, hnode, rfl⟩
    rw [Node.at?_put_of_not_prefix new hp fun hq => hp ?_, ha]
    obtain ⟨back, rfl⟩ := hq
    by_cases hne : back = []
    · rw [hne, List.append_nil]
    · obtain ⟨entries, hat⟩ := Node.directory_of_at?_append hne ha
      obtain ⟨⟨content, body, hfile⟩, -⟩ := hold _ hat
      cases hfile

theorem sameSources_put (hleaf : new.IsLeaf) (hd : tree.HasDirectoryAt front)
    (hbelow : new.sourcesBelow (front ++ [name]) = [])
    (hbody : Tree.bodyAt new [] = tree.bodyAt (front ++ [name]))
    (himports : new.importNames =
      ((tree.at? (front ++ [name])).map Node.importNames).getD []) :
    tree.SameSources (tree.put new (front ++ [name])) where
  file := at?_put_source_iff hnew hold hleaf hd
  directory := directory_put hnew hold hbelow
  body place := by
    have hsurface := surface_put hd hleaf (fun old ha => by
      obtain ⟨⟨content, body, rfl⟩, -⟩ := hold old ha
      exact Node.isLeaf_file) place
    by_cases hp : place = front ++ [name]
    · subst hp
      rw [bodyAt, hsurface, if_pos rfl, ← hbody]
      rfl
    · rw [bodyAt, hsurface, if_neg hp, ← bodyAt]
  importNames := Node.importNames_put himports

end

theorem PutStep.sameSources (h : before.PutStep after) : before.SameSources after := by
  cases h with
  | directory hd ha =>
    have hbody : before.bodyAt _ = {} := bodyAt_of_at?_eq_none ha
    exact sameSources_put (by simp [Node.isSource, Node.empty, Node.isDirectory]) (by simp [ha])
      Node.isLeaf_empty hd (Node.sourcesBelow_empty _) hbody.symm (by rw [ha]; rfl)
  | file content hd hn ha =>
    refine sameSources_put (by simp [Node.isSource, hn]) ?_ Node.isLeaf_file hd
      (sourcesBelow_file _ _ _) rfl ?_
    · intro old hold
      rcases ha with ha | ⟨content, body, ha⟩
      · simp [ha] at hold
      · rw [ha] at hold
        exact ⟨⟨content, body, (Option.some.inj hold).symm⟩, hn⟩
    · rcases ha with ha | ⟨old, body, ha⟩
      · rw [ha, bodyAt_of_at?_eq_none ha]
        rfl
      · rw [ha, bodyAt_of_surface (surface_eq_file_iff.mpr ha)]
        rfl

/-- What is written is no source and hides none. -/
theorem Written.sameSources {files : List (Location × List UInt8)} {ways : Location → Prop}
    (h : before.Written after files ways) : before.SameSources after := by
  have hsteps := h.steps
  clear h
  induction hsteps with
  | refl => exact .refl before
  | tail _ hstep ih => exact ih.trans hstep.sameSources

theorem ne_parent_of_isSourceName (h : isSourceName name) : name ≠ ".." := by
  rintro rfl
  exact absurd h (by decide +kernel)

/-- The files that a walk finds stand where their names say. -/
theorem place_of_mem_sourcesBelow {node : Node} {root : Location} {entry : String × Location}
    (hr : ".." ∉ root) (h : entry ∈ node.sourcesBelow root) :
    ∃ directory, entry.2 = directory ++ [entry.1] ∧ isSourceName entry.1 ∧ ".." ∉ entry.2 := by
  obtain ⟨hm, hname⟩ := List.mem_filter.mp h
  obtain ⟨directories, hp, hplace⟩ := exists_directories_filesBelow root node entry hm
  refine ⟨root ++ directories, hplace, hname, ?_⟩
  rw [hplace]
  simp [hr, hp, Ne.symm (ne_parent_of_isSourceName hname)]

theorem sourceUnits_eq {node : Node} {root : Location} (hl : tree.isLinkFree) (hr : ".." ∉ root)
    (ha : tree.at? root = some node) : sourceUnits tree root sourceExtension =
      (node.sourcesBelow root).filterMap fun entry =>
        if tree.isFile [] (.ofLocation entry.2) then some ⟨entry.2, sourceExtension⟩ else none := by
  rw [sourceUnits, ha, Node.sourcesBelow, List.filterMap_filter]
  refine List.filterMap_congr fun entry hm => ?_
  by_cases hname : isSourceName entry.1
  · obtain ⟨directory, -, -, hp⟩ :=
      place_of_mem_sourcesBelow hr (List.mem_filter.mpr ⟨hm, hname⟩)
    have hsuffix : Path.suffixOf entry.1 = sourceExtension := of_decide_eq_true hname
    simp [hname, hsuffix, realPlace_eq hl hp]
  · have hsuffix : Path.suffixOf entry.1 ≠ sourceExtension :=
      fun he => hname (decide_eq_true he)
    simp [hname, hsuffix]

theorem SameSources.hasFileAt_iff (h : before.SameSources after) (hn : isSourceName name) :
    after.HasFileAt (directory ++ [name]) ↔ before.HasFileAt (directory ++ [name]) := by
  simp only [HasFileAt, h.file hn]

theorem SameSources.isFile_eq (h : before.SameSources after) (hl : before.isLinkFree)
    (hl' : after.isLinkFree) (hp : ".." ∉ directory ++ [name]) (hn : isSourceName name) :
    after.isFile [] (.ofLocation (directory ++ [name])) =
      before.isFile [] (.ofLocation (directory ++ [name])) := by
  rw [Bool.eq_iff_iff, isFile_ofLocation_iff hl' hp, isFile_ofLocation_iff hl hp,
    h.hasFileAt_iff hn]

/-- A walk finds the same source files. -/
theorem SameSources.sourceUnits_eq {root : Location} (h : before.SameSources after)
    (hl : before.isLinkFree) (hl' : after.isLinkFree) (hr : ".." ∉ root)
    (hd : before.HasDirectoryAt root) :
    sourceUnits after root sourceExtension = sourceUnits before root sourceExtension := by
  obtain ⟨entries, ha⟩ := hd
  obtain ⟨node, ha', -, hsources⟩ := h.directory ha rfl
  rw [Tree.sourceUnits_eq hl' hr ha', Tree.sourceUnits_eq hl hr ha, hsources]
  refine List.filterMap_congr fun entry hm => ?_
  obtain ⟨directory, hplace, hname, hp⟩ := place_of_mem_sourcesBelow hr hm
  rw [hplace] at hp ⊢
  rw [h.isFile_eq hl hl' hp hname]

theorem SameSources.hasDirectoryAt (h : before.SameSources after)
    (hd : before.HasDirectoryAt place) : after.HasDirectoryAt place := by
  obtain ⟨entries, ha⟩ := hd
  obtain ⟨node, ha', hnode, -⟩ := h.directory ha rfl
  cases node with
  | directory entries => exact ⟨entries, ha'⟩
  | file | link => cases hnode

end Tree

end SymbolExport
