import SymbolExport.Proofs.Listing
import SymbolExport.Proofs.SourceWalk

/-!
What a walk finds and in which order. It finds the files with a suffix that stand below a root
behind entered directories, each once: in each directory its own by name, then those inside of its
directories, by name. So what it finds does not depend on how the directories are listed.
-/
namespace SymbolExport

/-- The order of a walk, for the places of files below one root. -/
inductive ComesBefore : Location → Location → Prop
  | file {name other : String} : name < other → ComesBefore [name] [other]
  | fileFirst {name directory : String} {rest : Location} :
      rest ≠ [] → ComesBefore [name] (directory :: rest)
  | directory {name other : String} {rest more : Location} :
      rest ≠ [] → more ≠ [] → name < other → ComesBefore (name :: rest) (other :: more)
  | inside {directory : String} {rest more : Location} :
      ComesBefore rest more → ComesBefore (directory :: rest) (directory :: more)

namespace ComesBefore

variable {p q r : Location}

theorem ne_nil (h : ComesBefore p q) : p ≠ [] ∧ q ≠ [] := by
  cases h <;> exact ⟨List.cons_ne_nil _ _, List.cons_ne_nil _ _⟩

protected theorem irrefl (p : Location) : ¬ ComesBefore p p := by
  intro h
  induction p with
  | nil => exact h.ne_nil.1 rfl
  | cons name rest ih =>
    cases h with
    | file hlt | directory _ _ hlt => exact String.lt_irrefl name hlt
    | fileFirst hne => exact hne rfl
    | inside h => exact ih h

protected theorem trans (h : ComesBefore p q) (h' : ComesBefore q r) : ComesBefore p r := by
  induction h generalizing r with
  | file hlt =>
    cases h' with
    | file hlt' => exact .file (String.lt_trans hlt hlt')
    | fileFirst hne => exact .fileFirst hne
    | directory hne => exact absurd rfl hne
    | inside h' => exact absurd rfl h'.ne_nil.1
  | fileFirst hne =>
    cases h' with
    | file | fileFirst => exact absurd rfl hne
    | directory _ hne' => exact .fileFirst hne'
    | inside h' => exact .fileFirst h'.ne_nil.2
  | directory hne hne' hlt =>
    cases h' with
    | file | fileFirst => exact absurd rfl hne'
    | directory _ hne'' hlt' => exact .directory hne hne'' (String.lt_trans hlt hlt')
    | inside h' => exact .directory hne h'.ne_nil.2 hlt
  | inside h ih =>
    cases h' with
    | file | fileFirst => exact absurd rfl h.ne_nil.2
    | directory _ hne hlt => exact .directory h.ne_nil.1 hne hlt
    | inside h' => exact .inside (ih h')

end ComesBefore

instance : Std.Irrefl ComesBefore := ⟨ComesBefore.irrefl⟩

instance : IsTrans Location ComesBefore := ⟨fun _ _ _ => ComesBefore.trans⟩

theorem pairwise_lt_sortByName {α : Type} {entries : List (String × α)}
    (h : (entries.map Prod.fst).Nodup) : (sortByName entries).Pairwise fun a b => a.1 < b.1 := by
  have hle : (sortByName entries).Pairwise fun a b => a.1 ≤ b.1 :=
    (List.pairwise_mergeSort decide_le_trans decide_le_total entries).imp of_decide_eq_true
  have hne : (sortByName entries).Pairwise fun a b => a.1 ≠ b.1 := by
    rw [← List.pairwise_map, names_sortByName]
    exact (List.mergeSort_perm _ _).nodup_iff.mpr h
  exact (hle.and hne).imp fun hpair => lt_of_le_of_ne hpair.1 hpair.2

theorem isEntered_iff {directory : String} : isEntered directory ↔
    directory.toList.head? ≠ some '.' ∧ directory ∉ cacheDirectories := by
  simp [isEntered, and_comm]

namespace Node

variable {node : Node} {entries : List (String × Node)} {here : Location}

theorem filesInside_eq (here : Location) (entries : List (String × Node)) :
    filesInside here entries = (entries.filter fun entry => isEntered entry.1).map
      fun entry => (entry.1, entry.2.filesBelow (here ++ [entry.1])) := by
  induction entries with
  | nil => rfl
  | cons entry rest ih =>
    obtain ⟨name, node⟩ := entry
    rw [filesInside, ih]
    by_cases hn : isEntered name <;> simp [hn]

/-- The own files of a directory come first, then what is inside of its directories. -/
theorem filesBelow_directory (here : Location) (entries : List (String × Node)) :
    (directory entries).filesBelow here =
      (sortByName (entries.filter fun entry => !entry.2.isDirectory)).map
          (fun entry => (entry.1, here ++ [entry.1])) ++
        (sortByName (entries.filter fun entry => isEntered entry.1)).flatMap
          fun entry => entry.2.filesBelow (here ++ [entry.1]) := by
  have hinside : sortByName (filesInside here entries) =
      (sortByName (entries.filter fun entry => isEntered entry.1)).map
        fun entry => (entry.1, entry.2.filesBelow (here ++ [entry.1])) := by
    rw [filesInside_eq, sortByName, sortByName]
    exact (List.map_mergeSort (by simp)).symm
  rw [filesBelow, hinside, List.map_map, List.flatMap_def]
  rfl

/-- What is below a node is the same wherever the node stands. -/
theorem filesBelow_eq_map (h : node.IsWellNamed) (here : Location) :
    node.filesBelow here = (node.filesBelow []).map fun entry => (entry.1, here ++ entry.2) := by
  induction h generalizing here with
  | file | link => simp [filesBelow]
  | @directory entries nodup parent inside ih =>
    have hinside : ∀ entry ∈ sortByName (entries.filter fun entry => isEntered entry.1),
        entry.2.filesBelow (here ++ [entry.1]) =
          (entry.2.filesBelow [entry.1]).map fun found => (found.1, here ++ found.2) := by
      intro entry hm
      have hentry := List.mem_of_mem_filter (List.mem_mergeSort.mp hm)
      rw [ih entry hentry (here ++ [entry.1]), ih entry hentry [entry.1], List.map_map]
      simp [Function.comp_def]
    rw [filesBelow_directory, filesBelow_directory, List.map_append, List.map_map,
      List.map_flatMap, List.flatMap_congr hinside]
    rfl

theorem filesBelow_root (h : (directory entries).IsWellNamed) :
    (directory entries).filesBelow [] =
      (sortByName (entries.filter fun entry => !entry.2.isDirectory)).map
          (fun entry => (entry.1, [entry.1])) ++
        (sortByName (entries.filter fun entry => isEntered entry.1)).flatMap fun entry =>
          (entry.2.filesBelow []).map fun found => (found.1, entry.1 :: found.2) := by
  cases h with
  | directory nodup parent inside =>
    rw [filesBelow_directory]
    congr 1
    refine List.flatMap_congr fun entry hm => ?_
    have hentry := List.mem_of_mem_filter (List.mem_mergeSort.mp hm)
    exact filesBelow_eq_map (inside entry hentry) [entry.1]

theorem filesBelow_ne_nil {found : String × Location} (h : found ∈ node.filesBelow []) :
    found.2 ≠ [] := by
  obtain ⟨directories, -, hplace⟩ := exists_directories_filesBelow [] node found h
  simp [hplace]

theorem pairwise_filesBelow (h : node.IsWellNamed) :
    (node.filesBelow []).Pairwise fun a b => ComesBefore a.2 b.2 := by
  induction h with
  | file | link => simp [filesBelow]
  | @directory entries nodup parent inside ih =>
    have hsorted (keep : String × Node → Bool) :
        (sortByName (entries.filter keep)).Pairwise fun a b => a.1 < b.1 :=
      pairwise_lt_sortByName (nodup.sublist (List.filter_sublist.map Prod.fst))
    rw [filesBelow_root (.directory nodup parent inside)]
    refine List.pairwise_append.mpr ⟨?own, List.pairwise_flatMap.mpr ⟨?each, ?across⟩, ?first⟩
    case own => exact List.pairwise_map.mpr ((hsorted _).imp .file)
    case each =>
      intro entry hm
      have hentry := List.mem_of_mem_filter (List.mem_mergeSort.mp hm)
      exact List.pairwise_map.mpr ((ih entry hentry).imp .inside)
    case across =>
      refine (hsorted _).imp fun hlt found hfound other hother => ?_
      obtain ⟨_, hbelow, rfl⟩ := List.mem_map.mp hfound
      obtain ⟨_, hbelow', rfl⟩ := List.mem_map.mp hother
      exact .directory (filesBelow_ne_nil hbelow) (filesBelow_ne_nil hbelow') hlt
    case first =>
      intro own hown found hfound
      obtain ⟨_, -, rfl⟩ := List.mem_map.mp hown
      obtain ⟨_, -, hinside⟩ := List.mem_flatMap.mp hfound
      obtain ⟨_, hbelow, rfl⟩ := List.mem_map.mp hinside
      exact .fileFirst (filesBelow_ne_nil hbelow)

/-- A walk finds what is no directory and stands behind entered directories. -/
theorem mem_filesBelow_iff (h : node.IsWellNamed) {name : String} {place : Location} :
    (name, place) ∈ node.filesBelow [] ↔ ∃ directories child, place = directories ++ [name] ∧
      (∀ d ∈ directories, isEntered d) ∧ node.at? place = some child ∧
        child.isDirectory = false := by
  induction h generalizing name place with
  | file | link =>
    refine ⟨by simp [filesBelow], ?_⟩
    rintro ⟨directories, child, rfl, -, hat, -⟩
    rw [IsLeaf.at?_eq_none (fun _ => rfl) (by simp)] at hat
    cases hat
  | @directory entries nodup parent inside ih =>
    -- names are distinct, so behind a name stands the entry of that name
    have hat (first : String) (rest : Location) (child : Node) :
        (directory entries).at? (first :: rest) = some child ↔
          ∃ sub, (first, sub) ∈ entries ∧ sub.at? rest = some child := by
      simp only [at?, entry?, Option.bind_eq_some_iff, Table.get?_eq_some_iff nodup]
    rw [filesBelow_root (.directory nodup parent inside), List.mem_append]
    constructor
    · rintro (hown | hinside)
      · obtain ⟨⟨first, child⟩, hm, heq⟩ := List.mem_map.mp hown
        obtain ⟨hentry, hchild⟩ := List.mem_filter.mp (List.mem_mergeSort.mp hm)
        obtain ⟨rfl, rfl⟩ := Prod.mk.inj heq
        exact ⟨[], child, rfl, by simp, (hat _ _ _).mpr ⟨child, hentry, rfl⟩, by simpa using hchild⟩
      · obtain ⟨⟨first, sub⟩, hm, hbelow⟩ := List.mem_flatMap.mp hinside
        obtain ⟨hentry, hentered⟩ := List.mem_filter.mp (List.mem_mergeSort.mp hm)
        obtain ⟨⟨last, rest⟩, hfound, heq⟩ := List.mem_map.mp hbelow
        obtain ⟨rfl, rfl⟩ := Prod.mk.inj heq
        obtain ⟨directories, child, rfl, hall, hchild, hfile⟩ := (ih _ hentry).mp hfound
        exact ⟨first :: directories, child, rfl, List.forall_mem_cons.mpr ⟨hentered, hall⟩,
          (hat _ _ _).mpr ⟨sub, hentry, hchild⟩, hfile⟩
    · rintro ⟨directories, child, rfl, hall, hchild, hfile⟩
      cases directories with
      | nil =>
        obtain ⟨sub, hentry, hsub⟩ := (hat _ _ _).mp hchild
        obtain rfl : sub = child := by simpa [at?] using hsub
        refine Or.inl (List.mem_map.mpr ⟨(name, sub), List.mem_mergeSort.mpr ?_, rfl⟩)
        exact List.mem_filter.mpr ⟨hentry, by simp [hfile]⟩
      | cons first directories =>
        obtain ⟨hentered, hall⟩ := List.forall_mem_cons.mp hall
        obtain ⟨sub, hentry, hsub⟩ := (hat _ _ _).mp hchild
        have hfound := (ih _ hentry).mpr ⟨directories, child, rfl, hall, hsub, hfile⟩
        refine Or.inr (List.mem_flatMap.mpr ⟨(first, sub), List.mem_mergeSort.mpr ?_,
          List.mem_map.mpr ⟨_, hfound, rfl⟩⟩)
        exact List.mem_filter.mpr ⟨hentry, hentered⟩

/-- The places below a node of the files with a suffix, as a walk finds them. -/
def walk (node : Node) (extension : String) : List Location :=
  ((node.filesBelow []).filter fun entry => Path.suffixOf entry.1 = extension).map Prod.snd

theorem pairwise_walk (h : node.IsWellNamed) (extension : String) :
    (node.walk extension).Pairwise ComesBefore :=
  List.pairwise_map.mpr ((pairwise_filesBelow h).filter _)

theorem mem_walk_iff (h : node.IsWellNamed) (hl : node.isLinkFree) {extension : String}
    {place : Location} : place ∈ node.walk extension ↔
      ∃ directories name, place = directories ++ [name] ∧ (∀ d ∈ directories, isEntered d) ∧
        Path.suffixOf name = extension ∧ Tree.HasFileAt node place := by
  have hfile (child : Node) (hat : node.at? place = some child) :
      child.isDirectory = false ↔ ∃ content body, child = file content body := by
    cases child with
    | file | directory => simp [isDirectory]
    | link target => exact absurd hat (at?_ne_link hl place target)
  simp only [walk, List.mem_map, List.mem_filter, Prod.exists, decide_eq_true_eq,
    mem_filesBelow_iff h]
  constructor
  · rintro ⟨name, _, ⟨⟨directories, child, rfl, hall, hat, hchild⟩, hsuffix⟩, rfl⟩
    obtain ⟨content, body, rfl⟩ := (hfile child hat).mp hchild
    exact ⟨directories, name, rfl, hall, hsuffix, content, body, hat⟩
  · rintro ⟨directories, name, rfl, hall, hsuffix, content, body, hat⟩
    exact ⟨name, _, ⟨⟨directories, _, rfl, hall, hat, rfl⟩, hsuffix⟩, rfl⟩

/-- What a walk finds depends only on where the files stand. -/
theorem walk_eq {other : Node} (hn : node.IsWellNamed) (hl : node.isLinkFree)
    (hn' : other.IsWellNamed) (hl' : other.isLinkFree)
    (h : ∀ place, Tree.HasFileAt other place ↔ Tree.HasFileAt node place) (extension : String) :
    other.walk extension = node.walk extension := by
  refine (pairwise_walk hn' extension).eq_of_mem_iff (pairwise_walk hn extension) fun place => ?_
  simp only [mem_walk_iff hn hl, mem_walk_iff hn' hl', h]

end Node

variable {tree other : Tree} {base place : Location} {node : Node}

theorem Tree.hasFileAt_append_iff (ha : tree.at? base = some node) :
    tree.HasFileAt (base ++ place) ↔ HasFileAt node place := by
  simp only [HasFileAt, Node.at?_append, ha, Option.bind_some]

theorem Tree.sourceUnits_eq_walk (hl : tree.isLinkFree) (hn : tree.IsWellNamed)
    (ha : tree.at? base = some node) (extension : String) : sourceUnits tree base extension =
      (node.walk extension).map fun place => ⟨base ++ place, extension⟩ := by
  obtain ⟨hnode, -⟩ := hn.at? ha
  rw [sourceUnits, ha]
  dsimp only
  rw [Node.filesBelow_eq_map hnode, List.filterMap_map, Node.walk, List.map_map,
    ← List.filterMap_eq_map, List.filterMap_filter]
  refine List.filterMap_congr fun found hm => ?_
  obtain ⟨directories, child, hplace, -, hat, hchild⟩ :=
    (Node.mem_filesBelow_iff hnode).mp (show (found.1, found.2) ∈ _ from hm)
  have hchildAt : tree.at? (base ++ found.2) = some child := by
    rw [Node.at?_append, ha, Option.bind_some, hat]
  obtain ⟨-, hparent⟩ := hn.at? hchildAt
  have hfile : tree.isFile [] (.ofLocation (base ++ found.2)) := by
    rw [Tree.isFile_ofLocation_iff hl hparent]
    cases child with
    | file content body => exact ⟨content, body, hchildAt⟩
    | link target => exact absurd hchildAt (Node.at?_ne_link hl _ target)
    | directory => cases hchild
  by_cases hsuffix : Path.suffixOf found.1 = extension
  · simp [hsuffix, hfile, Tree.realPlace_eq hl hparent]
  · simp [hsuffix]

theorem World.sourceFiles_eq_walk {w : World} (hl : w.tree.isLinkFree) (hn : w.tree.IsWellNamed)
    {root expanded : Path} (he : w.expandHome root = .ok expanded)
    (hd : w.tree.isDirectory w.cwd expanded) (extension label : String) :
    ∃ node, w.tree.at? (expanded.place w.cwd) = some node ∧
      w.resolve expanded = .ok (expanded.place w.cwd) ∧ w.sourceFiles root extension label =
        .ok ((node.walk extension).map fun place =>
          ⟨expanded.place w.cwd ++ place, extension⟩) := by
  obtain ⟨-, entries, ha⟩ := (Tree.isDirectory_iff hl).mp hd
  have hresolve : w.resolve expanded = .ok (expanded.place w.cwd) := by
    rw [resolve, Tree.resolve_eq hl]
    rfl
  refine ⟨.directory entries, ha, hresolve, ?_⟩
  rw [sourceFiles, he]
  simp only [bind, Except.bind, hd, if_true, hresolve, Tree.sourceUnits_eq_walk hl hn ha]
  rfl

/-- The source files below a directory are the files with the suffix that stand behind entered
directories, each once, in the order of the walk; in which order the entries of any directory are
listed makes no difference. -/
theorem World.sourceFiles_in_order (w : World) (hl : w.tree.isLinkFree) (hn : w.tree.IsWellNamed)
    {root expanded : Path} (he : w.expandHome root = .ok expanded)
    (hd : w.tree.isDirectory w.cwd expanded) (extension label : String) :
    ∃ (base : Location) (places : List Location), w.resolve expanded = .ok base ∧
      w.sourceFiles root extension label =
        .ok (places.map fun place => ⟨base ++ place, extension⟩) ∧
      places.Pairwise ComesBefore ∧ places.Nodup ∧
      (∀ place, place ∈ places ↔ ∃ directories name, place = directories ++ [name] ∧
        (∀ d ∈ directories, d.toList.head? ≠ some '.' ∧ d ∉ cacheDirectories) ∧
        Path.suffixOf name = extension ∧ w.tree.HasFileAt (base ++ place)) ∧
      ∀ other, w.tree.Relisted other →
        { w with tree := other }.sourceFiles root extension label =
          w.sourceFiles root extension label := by
  obtain ⟨node, ha, hresolve, hfiles⟩ := sourceFiles_eq_walk hl hn he hd extension label
  obtain ⟨hnode, -⟩ := hn.at? ha
  have hlink := Node.isLinkFree_at? hl ha
  have hpairwise := Node.pairwise_walk hnode extension
  refine ⟨expanded.place w.cwd, node.walk extension, hresolve, hfiles, hpairwise,
    hpairwise.nodup, fun place => ?_, fun other hother => ?_⟩
  · simp only [Node.mem_walk_iff hnode hlink, isEntered_iff, Tree.hasFileAt_append_iff ha]
  · have hl' := hother.isLinkFree hl
    have hn' := hother.isWellNamed hn
    have hd' := (Tree.isDirectory_relisted hother hl hn w.cwd expanded).mpr hd
    obtain ⟨node', ha', -, hfiles'⟩ := sourceFiles_eq_walk
      (w := { w with tree := other }) hl' hn' he hd' extension label
    obtain ⟨hnode', -⟩ := hn'.at? ha'
    -- the same files stand below both, and the order of the walk leaves one way to list them
    have hsame : node'.walk extension = node.walk extension := by
      have hlink' := Node.isLinkFree_at? hl' ha'
      refine Node.walk_eq hnode hlink hnode' hlink' (fun place => ?_) extension
      rw [← Tree.hasFileAt_append_iff ha', ← Tree.hasFileAt_append_iff ha,
        Tree.hasFileAt_relisted hother hn]
    rw [hfiles', hfiles, hsame]

def shelf : List (String × Node) :=
  [("b.py", .file [] {}), ("notes", .file [] {}),
    ("box", .directory [("c.py", .file [] {})]), (".old", .directory [("d.py", .file [] {})]),
    ("a.py", .file [] {})]

def shelfWorld : World :=
  { tree := .directory shelf, cwd := [], home := [] }

theorem isWellNamed_shelf : shelfWorld.tree.IsWellNamed := by
  have hbox (name : String) (h : ".." ∉ [name]) :
      (Node.directory [(name, .file [] {})]).IsWellNamed :=
    .directory (List.nodup_singleton name) h
      (List.forall_mem_singleton.mpr (.file [] {}))
  refine .directory (by decide) (by decide) ?_
  simp only [shelf, List.forall_mem_cons, List.not_mem_nil, false_imp_iff, implies_true, and_true]
  exact ⟨.file [] {}, .file [] {}, hbox "c.py" (by decide), hbox "d.py" (by decide), .file [] {}⟩

theorem relisted_shelf : shelfWorld.tree.Relisted (.directory shelf.reverse) := by
  have h := isWellNamed_shelf
  cases h with
  | directory nodup parent inside =>
    exact .directory Prod.snd (fun entry hm => .refl (inside entry hm))
      (by simp)

theorem World.sourceFiles_in_order_shelf : shelfWorld.tree.isLinkFree ∧
    shelfWorld.tree.IsWellNamed ∧
    shelfWorld.expandHome (.ofLocation []) = .ok (.ofLocation []) ∧
    shelfWorld.tree.isDirectory shelfWorld.cwd (.ofLocation []) ∧
    shelfWorld.tree.Relisted (.directory shelf.reverse) ∧
    (∃ places : List Location,
      shelfWorld.sourceFiles (.ofLocation []) ".py" "Source" =
        .ok (places.map fun place => ⟨place, ".py"⟩) ∧
      places.Pairwise ComesBefore ∧ ["box", "c.py"] ∈ places ∧ [".old", "d.py"] ∉ places) ∧
    { shelfWorld with tree := .directory shelf.reverse }.sourceFiles (.ofLocation []) ".py"
        "Source" = shelfWorld.sourceFiles (.ofLocation []) ".py" "Source" := by
  have hl : shelfWorld.tree.isLinkFree := by decide
  have he : shelfWorld.expandHome (.ofLocation []) = .ok (.ofLocation []) := rfl
  have hd : shelfWorld.tree.isDirectory shelfWorld.cwd (.ofLocation []) :=
    (Tree.isDirectory_ofLocation_iff hl List.not_mem_nil).mpr ⟨shelf, rfl⟩
  obtain ⟨base, places, hbase, hfiles, hpairwise, -, hmem, hother⟩ :=
    shelfWorld.sourceFiles_in_order hl isWellNamed_shelf he hd ".py" "Source"
  rw [resolve, Tree.resolve_eq hl] at hbase
  obtain rfl : [] = base := Except.ok.inj hbase
  refine ⟨hl, isWellNamed_shelf, he, hd, relisted_shelf,
    ⟨places, hfiles, hpairwise, (hmem _).mpr ?_, ?_⟩, hother _ relisted_shelf⟩
  · have hsuffix : Path.suffixOf "c.py" = ".py" := by decide +kernel
    exact ⟨["box"], "c.py", rfl, by decide, hsuffix, [], {}, rfl⟩
  · intro hold
    obtain ⟨directories, name, hplace, hentered, -⟩ := (hmem _).mp hold
    obtain ⟨rfl, -⟩ := List.append_inj' (show [".old"] ++ ["d.py"] = _ from hplace) rfl
    exact (hentered ".old" List.mem_cons_self).1 (by decide)

end SymbolExport
