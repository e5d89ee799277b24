import SymbolExport.Locator
import SymbolExport.Proofs.DeclaredName
import SymbolExport.Proofs.Place
import SymbolExport.Proofs.Report

/-!
Source files and the modules that are named after them. Each component of such a name leads one
directory on when it is imported, from the import root to the directory of the file.
-/
namespace SymbolExport

open SymbolExport.Text

namespace Path

theorem splitName_append (name : String) :
    (splitName name).1 ++ (splitName name).2 = name.toList := by
  unfold splitName
  dsimp only
  split
  · rename_i stem hd
    split
    · simp
    · have htail := List.prefix_iff_eq_take.mp
        (List.takeWhile_prefix (· ≠ '.') : _ <+: name.toList.reverse)
      have hsplit := List.take_append_drop
        (name.toList.reverse.takeWhile (· ≠ '.')).length name.toList.reverse
      rw [← htail, hd] at hsplit
      rw [← List.reverse_eq_iff, eq_comm] at hsplit
      refine Eq.trans ?_ hsplit.symm
      simp
  · simp

theorem stemOf_append_suffixOf (name : String) : stemOf name ++ suffixOf name = name := by
  rw [stemOf, suffixOf, ← String.ofList_append, splitName_append, String.ofList_toList]

/-- The suffix starts with the last dot. -/
theorem splitName_ofList {stem extension : List Char} (hs : stem ≠ []) (he : extension ≠ [])
    (hdot : '.' ∉ extension) :
    splitName (String.ofList (stem ++ '.' :: extension)) = (stem, '.' :: extension) := by
  have hall : ∀ c ∈ extension.reverse, decide (c ≠ '.') := by
    intro c hc
    refine decide_eq_true ?_
    rintro rfl
    exact hdot (List.mem_reverse.mp hc)
  have hback : (String.ofList (stem ++ '.' :: extension)).toList.reverse =
      extension.reverse ++ '.' :: stem.reverse := by simp
  have htail : (extension.reverse ++ '.' :: stem.reverse).takeWhile (· ≠ '.') =
      extension.reverse := by
    rw [List.takeWhile_append_of_pos hall]
    simp
  simp only [splitName, hback, htail, List.drop_left]
  simp [hs, he]

end Path

/-- The name of a source file is its stem with the suffix of modules. -/
theorem eq_stemOf_append {name : String} (h : Path.suffixOf name = sourceExtension) :
    name = Path.stemOf name ++ moduleSuffix := by
  have hname := Path.stemOf_append_suffixOf name
  rw [h] at hname
  exact hname.symm

theorem ne_parent_of_isEntered {name : String} (h : isEntered name) : name ≠ ".." := by
  rintro rfl
  exact absurd h (by decide)

mutual

/-- Only directories with names of their own are entered on the way to a file. -/
theorem exists_directories_filesBelow (here : Location) :
    (node : Node) → ∀ entry ∈ node.filesBelow here,
      ∃ directories, ".." ∉ directories ∧ entry.2 = here ++ directories ++ [entry.1]
  | .file .. | .link _ => by simp [Node.filesBelow]
  | .directory entries => by
    intro entry hm
    rw [Node.filesBelow] at hm
    rcases List.mem_append.mp hm with hm | hm
    · obtain ⟨own, -, rfl⟩ := List.mem_map.mp hm
      exact ⟨[], by simp⟩
    · obtain ⟨inner, hi, he⟩ := List.mem_flatten.mp hm
      obtain ⟨sub, hs, rfl⟩ := List.mem_map.mp hi
      exact exists_directories_filesInside here entries sub (List.mem_mergeSort.mp hs) entry he

theorem exists_directories_filesInside (here : Location) :
    (entries : List (String × Node)) → ∀ sub ∈ Node.filesInside here entries, ∀ entry ∈ sub.2,
      ∃ directories, ".." ∉ directories ∧ entry.2 = here ++ directories ++ [entry.1]
  | [] => by simp [Node.filesInside]
  | (name, node) :: rest => by
    intro sub hm entry he
    rw [Node.filesInside] at hm
    split at hm
    · rename_i hentered
      rcases List.mem_cons.mp hm with rfl | hm
      · obtain ⟨directories, hp, hplace⟩ :=
          exists_directories_filesBelow (here ++ [name]) node entry he
        refine ⟨name :: directories, ?_, by simpa using hplace⟩
        simp [hp, Ne.symm (ne_parent_of_isEntered hentered)]
      · exact exists_directories_filesInside here rest sub hm entry he
    · exact exists_directories_filesInside here rest sub hm entry he

end

/-- A file that a walk finds, by its directory and its name. -/
theorem exists_name_of_mem_sourceUnits {tree : Tree} {root : Location} {unit : SourceUnit}
    (h : tree.isLinkFree) (hu : unit ∈ sourceUnits tree root sourceExtension) :
    ∃ directory name, unit.path = directory ++ [name] ∧ Path.suffixOf name = sourceExtension := by
  unfold sourceUnits at hu
  split at hu
  · rename_i node _
    obtain ⟨⟨name, place⟩, hm, hu⟩ := List.mem_filterMap.mp hu
    dsimp only at hu
    split at hu
    · rename_i hfile
      cases hu
      rw [Bool.and_eq_true, decide_eq_true_eq] at hfile
      obtain ⟨directories, -, hplace⟩ := exists_directories_filesBelow root node _ hm
      dsimp only at hplace
      subst hplace
      have hn : name ≠ ".." := by
        rintro rfl
        exact absurd hfile.1 (by decide +kernel)
      refine ⟨normalize [] (root ++ directories), name, ?_, hfile.1⟩
      simp [Tree.realPlace, Tree.resolve_eq h, Path.ofLocation, Path.isAbsolute,
        normalize_append, normalize, hn]
    · cases hu
  · cases hu

/-- A component of the name of a module, which is a name in a directory as well. -/
structure IsComponent (name : String) : Prop where
  ne_empty : name ≠ ""
  dotFree : '.' ∉ name.toList

theorem IsComponent.ne_parent {name : String} (h : IsComponent name) : name ≠ ".." := by
  rintro rfl
  exact h.dotFree (by decide)

theorem isComponent_of_isIdentifier {name : String} (h : isIdentifier name.toList) :
    IsComponent name where
  ne_empty := by
    rintro rfl
    cases h
  dotFree := by
    intro hdot
    rw [not_isIdentifier_of_dot hdot] at h
    cases h

theorem isModuleName_of_isComponent {parts : List String} (hne : parts ≠ [])
    (h : ∀ part ∈ parts, IsComponent part) : IsModuleName parts.reverse where
  ne_nil := by simpa using hne
  dotFree part hm := (h part (List.mem_reverse.mp hm)).dotFree
  first_ne_empty := by
    rw [List.getLast?_reverse]
    intro he
    exact (h "" (List.mem_of_head? he)).ne_empty rfl

theorem dotted?_eq_some_iff {parts : List String} {moduleName : String} :
    dotted? parts = some moduleName ↔ parts ≠ [] ∧ (∀ part ∈ parts, isIdentifier part.toList) ∧
      ".".intercalate parts = moduleName := by
  unfold dotted?
  split
  · rename_i h
    simp only [Bool.or_eq_true, List.isEmpty_iff, Bool.not_eq_true', ← Bool.not_eq_true,
      List.all_eq_true] at h
    refine ⟨nofun, fun ⟨hne, hall, _⟩ => ?_⟩
    exact absurd (h.resolve_left hne) (not_not_intro hall)
  · rename_i h
    simp only [Bool.or_eq_true, List.isEmpty_iff, Bool.not_eq_true', not_or, Bool.not_eq_false,
      List.all_eq_true] at h
    simp only [Option.some.injEq]
    exact ⟨fun heq => ⟨h.1, h.2, heq⟩, fun heq => heq.2.2⟩

/-- Identifiers that are joined by dots come apart again. -/
theorem componentsOf_dotted? {parts : List String} {moduleName : String}
    (h : dotted? parts = some moduleName) :
    IsModuleName (componentsOf moduleName) ∧ componentsOf moduleName = parts.reverse ∧
      ∀ name ∈ componentsOf moduleName, IsComponent name := by
  obtain ⟨hne, hidentifiers, hname⟩ := dotted?_eq_some_iff.mp h
  have hall : ∀ part ∈ parts, IsComponent part :=
    fun part hm => isComponent_of_isIdentifier (hidentifiers part hm)
  have hn := isModuleName_of_isComponent hne hall
  have hcomponents : componentsOf moduleName = parts.reverse := by
    rw [← hn.componentsOf_dottedName, dottedName, List.reverse_reverse, hname]
  rw [hcomponents]
  exact ⟨hn, rfl, fun name hm => hall name (List.mem_reverse.mp hm)⟩

/-- The module of a file is named after the directories below the root and the stem of the file. -/
theorem moduleName?_append (root : Location) (directories : List String) (last : String) :
    moduleName? (root ++ directories ++ [last]) root =
      .ok (dotted? (dropInit (directories ++ [Path.stemOf last]))) := by
  have hrelative : (Path.ofLocation (root ++ directories ++ [last])).relativeTo?
      (Path.ofLocation root) = some ⟨.relative, directories ++ [last]⟩ := by
    simp [Path.relativeTo?, Path.ofLocation]
  have hbare : (⟨.relative, directories ++ [last]⟩ : Path).withoutSuffix? =
      some ⟨.relative, directories ++ [Path.stemOf last]⟩ := by
    simp [Path.withoutSuffix?, Path.withName?, Path.stem, Path.name]
  rw [moduleName?, hrelative]
  simp only [hbare]

theorem dotted?_of_moduleName? {file root : Location} {moduleName : String}
    (h : moduleName? file root = .ok (some moduleName)) :
    ∃ directories last, file = root ++ directories ++ [last] ∧
      dotted? (dropInit (directories ++ [Path.stemOf last])) = some moduleName := by
  cases hrelative : (Path.ofLocation file).relativeTo? (Path.ofLocation root) with
  | none =>
    rw [moduleName?, hrelative] at h
    cases h
  | some relative =>
    obtain ⟨names, rfl, rfl⟩ := exists_names_of_relativeTo? hrelative
    rcases List.eq_nil_or_concat' names with rfl | ⟨directories, last, rfl⟩
    · rw [moduleName?, hrelative] at h
      cases h
    · rw [← List.append_assoc, moduleName?_append] at h
      exact ⟨directories, last, (List.append_assoc _ _ _).symm, Except.ok.inj h⟩

theorem components_of_moduleName? {file root : Location} {moduleName : String}
    (h : moduleName? file root = .ok (some moduleName)) :
    ∃ directories last, file = root ++ directories ++ [last] ∧
      componentsOf moduleName = (dropInit (directories ++ [Path.stemOf last])).reverse ∧
      IsModuleName (componentsOf moduleName) ∧
      ∀ name ∈ componentsOf moduleName, IsComponent name := by
  obtain ⟨directories, last, hfile, hdotted⟩ := dotted?_of_moduleName? h
  obtain ⟨hn, hcomponents, hall⟩ := componentsOf_dotted? hdotted
  exact ⟨directories, last, hfile, hcomponents, hn, hall⟩

/-- The type of a source file stands in the module that is named after the file's own place. -/
theorem World.moduleName?_of_unit {w : World} {importRoot : Path} {sourceRoot root : Location}
    {extension : String} {unit : SourceUnit} {bases? : Option (List String)} {t : ResolvedType}
    (hu : unit ∈ sourceUnits w.tree sourceRoot extension) (hr : w.resolve importRoot = .ok root)
    (ht : (w.resolveType (.ofLocation unit.path) importRoot bases?).1 = .ok (some t)) :
    moduleName? unit.path root = .ok (some t.moduleName) := by
  obtain ⟨hparent, content, body, ha⟩ := exists_file_of_mem_sourceUnits hu
  obtain ⟨file, root', hfile, hroot, hname⟩ := moduleName?_of_resolveType ht
  rw [hr] at hroot
  cases hroot
  rw [resolve, Tree.resolve_ofLocation hparent ha (by simp)] at hfile
  cases hfile
  exact hname

end SymbolExport
