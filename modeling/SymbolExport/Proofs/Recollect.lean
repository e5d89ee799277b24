import SymbolExport.Proofs.Reimport

/-!
Collecting again from other files with the same sources: each file gives what it gave, the same
modules are loaded for it and their cleanup ends alike, and so the report is the same.
-/
namespace SymbolExport

variable {before after : Tree} {root cwd : Location} {cache : ModuleCache}

/-- Without links, trees agree on the places that lie below a root. -/
theorem Tree.anyBelow_congr (hl : before.isLinkFree) (hl' : after.isLinkFree) (cwd root : Location)
    (places : List Path) : after.anyBelow cwd root places = before.anyBelow cwd root places := by
  induction places with
  | nil => rfl
  | cons place rest ih => simp only [anyBelow, resolve_eq hl, resolve_eq hl', ih]

namespace ModuleCache

theorem Sound.isModuleName_of_mem {tree : Tree} {name : String} {m : LoadedModule}
    (h : Sound tree root cache) (hm : (name, m) ∈ cache) : IsModuleName (componentsOf name) := by
  have hhas : cache.has name := Table.has_iff_mem_names.mpr (List.mem_map_of_mem hm)
  rw [has_eq_isSome_originOf?, Option.isSome_iff_exists] at hhas
  obtain ⟨origin, ho⟩ := hhas
  obtain ⟨inner, outer, directory, hn, rfl, -⟩ := h.found (by simp [Table.has]) ho
  rwa [hn.componentsOf_dottedName]

theorem Sound.lookAgain_congr {name : String} {m : LoadedModule} (h : Sound before root cache)
    (h' : Sound after root cache) (hm : (name, m) ∈ cache) :
    cache.lookAgain after root name m = cache.lookAgain before root name m ∧
      ∀ m' cache', cache.lookAgain before root name m = .ok (m', cache') → cache' = cache := by
  have hn := h.isModuleName_of_mem hm
  unfold lookAgain
  split
  · rw [h.directoryOf_congr h' fun _ => hn]
    cases hd : cache.directoryOf before root (componentsOf name) with
    | error fault => simp
    | ok found =>
      obtain ⟨-, hsame⟩ := h.directoryOf_eq (fun _ => hn) hd
      refine ⟨rfl, fun m' cache' he => ?_⟩
      cases he
      exact hsame
  · refine ⟨rfl, fun m' cache' he => ?_⟩
    cases he
    rfl

/-- Modules that stand for the same in two trees without links are cleaned up alike. -/
theorem Sound.namesToForget_congr (h : Sound before root cache) (h' : Sound after root cache)
    (hl : before.isLinkFree) (hl' : after.isLinkFree) (old : ModuleCache) (cwd : Location)
    {entries : List (String × LoadedModule)} (hm : ∀ entry ∈ entries, entry ∈ cache) :
    namesToForget old after cwd root entries cache =
      namesToForget old before cwd root entries cache := by
  induction entries with
  | nil => rfl
  | cons entry rest ih =>
    obtain ⟨name, m⟩ := entry
    obtain ⟨hentry, hrest⟩ := List.forall_mem_cons.mp hm
    obtain ⟨hagain, hsame⟩ := h.lookAgain_congr h' hentry
    unfold namesToForget
    rw [hagain, ih hrest]
    cases hd : cache.lookAgain before root name m with
    | error fault => rfl
    | ok found =>
      obtain ⟨m', cache'⟩ := found
      obtain rfl := hsame m' cache' hd
      simp only [ih hrest, funext (Tree.anyBelow_congr hl hl' cwd root)]

theorem Sound.cleanUp_congr (h : Sound before root cache) (h' : Sound after root cache)
    (hl : before.isLinkFree) (hl' : after.isLinkFree) (old : ModuleCache) (cwd : Location) :
    cache.cleanUp old after cwd root = cache.cleanUp old before cwd root := by
  unfold cleanUp
  rw [h.namesToForget_congr h' hl hl' old cwd fun _ hm => hm]

end ModuleCache

namespace World

variable {w w' : World} {mode : ExportMode} {policy : Policy} {importRoot : Path}
  {unit : SourceUnit} {units : List SourceUnit} {sourceRoot : Location}
  {bases? : Option (List String)}

/-- Two processes that differ in their files and log alone, and have the same sources. -/
structure SharesSources (w w' : World) : Prop where
  cwd : w'.cwd = w.cwd
  home : w'.home = w.home
  sources : w.tree.SameSources w'.tree

theorem SharesSources.resolve_eq (h : w.SharesSources w') (hw : w.IsFresh) (hw' : w'.IsFresh)
    (p : Path) : w'.resolve p = w.resolve p := by
  simp only [resolve, Tree.resolve_eq hw.linkFree, Tree.resolve_eq hw'.linkFree, h.cwd]

theorem SharesSources.readSource_eq (h : w.SharesSources w') (hw : w.IsFresh) (hw' : w'.IsFresh)
    (hu : unit ∈ sourceUnits w.tree sourceRoot sourceExtension) :
    w'.readSource (.ofLocation unit.path) = w.readSource (.ofLocation unit.path) := by
  obtain ⟨hparent, content, body, ha⟩ := exists_file_of_mem_sourceUnits hu
  obtain ⟨directory, name, hpath, hsuffix⟩ := exists_name_of_mem_sourceUnits hw.linkFree hu
  have ha' : w'.tree.at? unit.path = some (.file content body) := by
    rw [hpath] at ha ⊢
    exact (h.sources.file (decide_eq_true hsuffix)).mpr ha
  have hstat : w.tree.stat w.cwd (.ofLocation unit.path) = .ok (.file content body) :=
    (Tree.stat_ofLocation_iff hw.linkFree hparent).mpr ha
  have hstat' : w'.tree.stat w'.cwd (.ofLocation unit.path) = .ok (.file content body) :=
    (Tree.stat_ofLocation_iff hw'.linkFree hparent).mpr ha'
  simp only [readSource, Tree.read, hstat, hstat']

theorem SharesSources.resolveType_eq (h : w.SharesSources w') (hw : w.IsFresh) (hw' : w'.IsFresh)
    (hu : unit ∈ sourceUnits w.tree sourceRoot sourceExtension) :
    (w'.resolveType (.ofLocation unit.path) importRoot bases?).1 =
      (w.resolveType (.ofLocation unit.path) importRoot bases?).1 := by
  simp only [resolveType, h.readSource_eq hw hw' hu, h.resolve_eq hw hw']
  split
  · rfl
  · split
    · rfl
    · exact congrArg (fun full? => Except.ok (full?.map ResolvedType.ofQualified))
        (extractName_fst w' w _ _)

/-- A source file gives what it gave, and the same modules are loaded for it. -/
theorem SharesSources.extraction_eq (h : w.SharesSources w') (hw : w.IsFresh) (hw' : w'.IsFresh)
    (mode : ExportMode) (policy : Policy)
    (hu : unit ∈ sourceUnits w.tree sourceRoot sourceExtension)
    (hr : w.resolve importRoot = .ok root) (hi : w.tree.KeepsImports w'.tree root)
    (hc : cache.Sound w.tree root) (hc' : cache.Sound w'.tree root) :
    w'.extraction mode policy importRoot root cache unit =
      w.extraction mode policy importRoot root cache unit := by
  have htype : (w'.resolveType (.ofLocation unit.path) importRoot mode.baseNames?).1 = _ :=
    h.resolveType_eq hw hw' hu
  unfold extraction
  rw [htype]
  split
  · rfl
  · rfl
  · rename_i t ht
    obtain ⟨hparent, hfile⟩ := exists_file_of_mem_sourceUnits hu
    obtain ⟨directory, name, hpath, hsuffix⟩ := exists_name_of_mem_sourceUnits hw.linkFree hu
    have hsource : isSourceName (unit.path.getLast?.getD "") := by
      simpa [hpath, isSourceName] using hsuffix
    have hroot := hw.parent_notMem_of_resolve hr
    have hfound := h.sources.findsAgain_of_file hw.linkFree hw'.linkFree hroot hparent hfile
      hsource (moduleName?_of_unit hu hr ht)
    simp only [typeExtraction,
      importNamed_eq h.sources hw.linkFree hw'.linkFree hroot hi hc hc' hfound]

theorem SharesSources.extractions_eq (h : w.SharesSources w') (hw : w.IsFresh)
    (hw' : w'.IsFresh) (mode : ExportMode) (policy : Policy)
    (hu : ∀ unit ∈ units, unit ∈ sourceUnits w.tree sourceRoot sourceExtension)
    (hr : w.resolve importRoot = .ok root) (hi : w.tree.KeepsImports w'.tree root)
    (hc : cache.Sound w.tree root) (hc' : cache.Sound w'.tree root) :
    w'.extractions mode policy importRoot root cache units =
        w.extractions mode policy importRoot root cache units ∧
      (w.extractions mode policy importRoot root cache units).2.Sound w.tree root ∧
      (w.extractions mode policy importRoot root cache units).2.Sound w'.tree root := by
  induction units generalizing cache with
  | nil => exact ⟨rfl, hc, hc'⟩
  | cons unit rest ih =>
    obtain ⟨hunit, hrest⟩ := List.forall_mem_cons.mp hu
    have hfirst := h.extraction_eq hw hw' mode policy hunit hr hi hc hc'
    have hsound := obeys_extraction (Placed.isObeyed [] w.tree root) mode policy importRoot cache
      unit hc
    have hsound' := obeys_extraction (Placed.isObeyed [] w'.tree root) mode policy importRoot cache
      unit hc'
    rw [hfirst] at hsound'
    unfold extractions
    rw [hfirst]
    generalize w.extraction mode policy importRoot root cache unit = extracted at hsound hsound' ⊢
    obtain ⟨result, loaded⟩ := extracted
    cases result with
    | error failure => exact ⟨rfl, hsound, hsound'⟩
    | ok e =>
      obtain ⟨hothers, hlast, hlast'⟩ := ih hrest hsound hsound'
      dsimp only
      rw [hothers]
      generalize w.extractions mode policy importRoot root loaded rest = others at hlast hlast' ⊢
      obtain ⟨result, last⟩ := others
      cases result <;> exact ⟨rfl, hlast, hlast'⟩

end World

/-- Collecting from the same sources gives the same report, or fails alike. -/
theorem Exporter.collect_eq_of_sharesSources {w w' : World} (h : w.SharesSources w')
    (hw : w.IsFresh) (hw' : w'.IsFresh) {x : Exporter} {o : ExportOptions} {source : Path}
    (hx : x.extension = sourceExtension) (hs : w.expandHome o.sourceRoot = .ok source)
    (hd : w.tree.isDirectory w.cwd source)
    (hi : ∀ root, w.resolve o.importRoot = .ok root → w.tree.KeepsImports w'.tree root) :
    (x.collect o w').1 = (x.collect o w).1 := by
  have hplace : w.resolve source = .ok (source.place w.cwd) := by
    simp [World.resolve, Tree.resolve_eq hw.linkFree, Except.mapError, Path.place, Path.start]
  have hd' : w'.tree.isDirectory w'.cwd source := by
    rw [h.cwd]
    obtain ⟨hp, hdirectory⟩ := (Tree.isDirectory_iff hw.linkFree).mp hd
    refine (Tree.isDirectory_iff hw'.linkFree).mpr ⟨?_, h.sources.hasDirectoryAt hdirectory⟩
    exact fun front last back he => h.sources.hasDirectoryAt (hp front last back he)
  have hwalk := h.sources.sourceUnits_eq hw.linkFree hw'.linkFree
    (hw.parent_notMem_of_resolve hplace) ((Tree.isDirectory_iff hw.linkFree).mp hd).2
  have hunits : w.sourceFiles o.sourceRoot x.extension x.label =
      .ok (sourceUnits w.tree (source.place w.cwd) sourceExtension) := by
    simp [World.sourceFiles, hs, hd, hplace, hx, bind, Except.bind, pure, Except.pure]
  have hunits' : w'.sourceFiles o.sourceRoot x.extension x.label =
      .ok (sourceUnits w.tree (source.place w.cwd) sourceExtension) := by
    have hs' : w'.expandHome o.sourceRoot = .ok source := by
      rwa [World.expandHome, h.home]
    simp [World.sourceFiles, hs', hd', h.resolve_eq hw hw', hplace, hx, hwalk, bind, Except.bind,
      pure, Except.pure]
  cases hr : w.resolve o.importRoot with
  | error failure =>
    have hr' : w'.resolve o.importRoot = .error failure := by rw [h.resolve_eq hw hw', hr]
    simp [collect, hunits, hunits', hr, hr']
  | ok root =>
    have hr' : w'.resolve o.importRoot = .ok root := by rw [h.resolve_eq hw hw', hr]
    obtain ⟨hblock, hsound, hsound'⟩ := h.extractions_eq hw hw' x.mode (x.policyFor o)
      (fun _ hm => hm) hr (hi root hr) (ModuleCache.sound_nil w.tree root)
      (ModuleCache.sound_nil w'.tree root)
    have hclean := hsound.cleanUp_congr hsound' hw.linkFree hw'.linkFree [] w.cwd
    rw [fst_collect hunits hr, fst_collect hunits' hr', hw.modules, hw'.modules, hblock, h.cwd,
      hclean]

end SymbolExport
