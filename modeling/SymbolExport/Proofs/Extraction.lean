import SymbolExport.Proofs.Encoding
import SymbolExport.Proofs.Place
import SymbolExport.Proofs.Session

/-!
What a run records for its files, one after the other: each of them is read off the files on disk and
the modules that are loaded by then.
-/
namespace SymbolExport

namespace World

/-- A state in the block of imports that a process has opened for a root. -/
structure IsInBlock (w : World) (root : Location) (v : World) : Prop where
  tree : v.tree = w.tree
  cwd : v.cwd = w.cwd
  front : v.searchPath.head? = some root
  obeys : ∀ {R}, ModuleCache.IsObeyed w.tree root R → R w.modules v.modules

variable {w v v' : World} {root : Location} {mode : ExportMode} {policy : Policy}
  {path importRoot : Path} {bases? : Option (List String)} {t : ResolvedType} {unit : SourceUnit}
  {units : List SourceUnit}

theorem isInBlock_opened (w : World) (root : Location) : w.IsInBlock root (w.opened root) :=
  ⟨rfl, rfl, rfl, fun h => h.refl w.modules⟩

theorem IsInBlock.of_reads (h : w.IsInBlock root v) (hr : v.Reads v') : w.IsInBlock root v' where
  tree := hr.tree.trans h.tree
  cwd := hr.cwd.trans h.cwd
  front := by rw [hr.searchPath, h.front]
  obeys ho := ho.trans (h.obeys ho) (hr.obeys h.front (by rwa [h.tree]))

theorem extractName_fst (v v' : World) (source : List Char) (moduleName? : Option String) :
    (v.extractName source moduleName? bases?).1 = (v'.extractName source moduleName? bases?).1 := by
  unfold extractName
  split <;> rfl

/-- The type of a file is read off the files alone. -/
theorem resolveType_fst (ht : v.tree = v'.tree) (hc : v.cwd = v'.cwd) (path importRoot : Path)
    (bases? : Option (List String)) :
    (v.resolveType path importRoot bases?).1 = (v'.resolveType path importRoot bases?).1 := by
  simp only [resolveType, readSource, resolve, ht, hc]
  split
  · rfl
  · split
    · rfl
    · exact congrArg (fun full? => Except.ok (full?.map ResolvedType.ofQualified))
        (extractName_fst v v' _ _)

/-- The type of a file by its text and by the places of file and root. -/
theorem fst_resolveType_of {source : List Char} {file : Location} {moduleName full : String}
    (hs : w.readSource path = .ok source) (hf : w.resolve path = .ok file)
    (hr : w.resolve importRoot = .ok root) (hm : moduleName? file root = .ok (some moduleName))
    (ht : (tokenize source).map (qualifiedName? bases? (some moduleName)) = .ok (some full)) :
    (w.resolveType path importRoot bases?).1 = .ok (some (.ofQualified full)) := by
  have hname : ((do
      let file ← w.resolve path
      let root ← w.resolve importRoot
      (moduleName? file root).mapError Failure.emptyName) : Except Failure (Option String)) =
        .ok (some moduleName) := by
    simp [hf, hr, hm, bind, Except.bind, Except.mapError]
  simp only [resolveType, hs, hname, extractName]
  cases hk : tokenize source with
  | error fault => simp [hk, Except.map] at ht
  | ok tokens =>
    rw [hk] at ht
    simp [Except.ok.inj ht]

theorem resolveType_modules (v : World) (path importRoot : Path)
    (bases? : Option (List String)) :
    (v.resolveType path importRoot bases?).2.modules = v.modules := by
  unfold resolveType
  split
  · rfl
  · dsimp only
    split
    · rfl
    · unfold extractName
      split <;> rfl

/-- What a look-up makes of an import. -/
def lookedUp (name : String) : Except ImportFault LoadedModule → Except Raised (Option Symbol)
  | .error (.raised r) => if r.isAbort then .error r else .ok none
  | .error _ => .ok none
  | .ok m => .ok (m.symbol? name)

theorem IsInBlock.loadType (h : w.IsInBlock root v) (t : ResolvedType) :
    (v.loadType t).1 = lookedUp t.name (v.modules.importNamed w.tree root t.moduleName).1 ∧
      (v.loadType t).2.modules = (v.modules.importNamed w.tree root t.moduleName).2 := by
  obtain ⟨rest, hp⟩ : ∃ rest, v.searchPath = root :: rest := by
    have hf := h.front
    cases hs : v.searchPath with
    | nil => simp [hs] at hf
    | cons first rest => exact ⟨rest, by simp_all⟩
  simp only [World.loadType, importModule, hp, h.tree]
  generalize v.modules.importNamed w.tree root t.moduleName = imported
  obtain ⟨result, after⟩ := imported
  cases result with
  | error fault =>
    cases fault with
    | raised r =>
      dsimp only [lookedUp]
      split <;> exact ⟨rfl, rfl⟩
    | _ => exact ⟨rfl, rfl⟩
  | ok m =>
    dsimp only [lookedUp]
    split
    · rename_i symbol hm
      exact ⟨by rw [hm], rfl⟩
    · rename_i hm
      exact ⟨by rw [hm], rfl⟩

/-- What a file gives whose type is known, and which modules are loaded then. -/
def typeExtraction (tree : Tree) (mode : ExportMode) (policy : Policy) (root : Location)
    (cache : ModuleCache) (unit : SourceUnit) (t : ResolvedType) :
    Except Failure Extraction × ModuleCache :=
  let (imported, cache) := cache.importNamed tree root t.moduleName
  match lookedUp t.name imported with
  | .error r => (.error (.aborted r), cache)
  | .ok symbol? => (.ok ⟨unit, mode.outcome policy t symbol?⟩, cache)

/-- What a file gives and which modules are loaded then, in a block of imports for a root. -/
def extraction (w : World) (mode : ExportMode) (policy : Policy) (importRoot : Path)
    (root : Location) (cache : ModuleCache) (unit : SourceUnit) :
    Except Failure Extraction × ModuleCache :=
  match (w.resolveType (.ofLocation unit.path) importRoot mode.baseNames?).1 with
  | .error failure => (.error failure, cache)
  | .ok none => (.ok ⟨unit, .unresolved⟩, cache)
  | .ok (some t) => typeExtraction w.tree mode policy root cache unit t

theorem IsInBlock.extract (h : w.IsInBlock root v) (mode : ExportMode) (policy : Policy)
    (importRoot : Path) (unit : SourceUnit) :
    ((v.extract mode policy importRoot unit).1, (v.extract mode policy importRoot unit).2.modules) =
      w.extraction mode policy importRoot root v.modules unit := by
  have hfst := resolveType_fst h.tree h.cwd (.ofLocation unit.path) importRoot mode.baseNames?
  have hread := h.of_reads (reads_resolveType v (.ofLocation unit.path) importRoot mode.baseNames?)
  have hmodules := resolveType_modules v (.ofLocation unit.path) importRoot mode.baseNames?
  unfold World.extract extraction typeExtraction
  rw [← hfst]
  generalize v.resolveType (.ofLocation unit.path) importRoot mode.baseNames? = resolved
    at hread hmodules ⊢
  obtain ⟨result, middle⟩ := resolved
  dsimp only at hread hmodules ⊢
  match result with
  | .error failure => rw [← hmodules]
  | .ok none => rw [← hmodules]
  | .ok (some t) =>
    obtain ⟨hload, hafter⟩ := hread.loadType t
    rw [hmodules] at hload hafter
    dsimp only
    generalize middle.loadType t = loaded at hload hafter ⊢
    obtain ⟨result, last⟩ := loaded
    dsimp only at hload hafter ⊢
    rw [← hload, ← hafter]
    cases result <;> rfl

/-- What files give one after the other. -/
def extractions (w : World) (mode : ExportMode) (policy : Policy) (importRoot : Path)
    (root : Location) (cache : ModuleCache) :
    List SourceUnit → Except Failure (List Extraction) × ModuleCache
  | [] => (.ok [], cache)
  | unit :: rest =>
    match w.extraction mode policy importRoot root cache unit with
    | (.error failure, cache) => (.error failure, cache)
    | (.ok e, cache) =>
      match w.extractions mode policy importRoot root cache rest with
      | (.error failure, cache) => (.error failure, cache)
      | (.ok es, cache) => (.ok (e :: es), cache)

/-- What every import keeps of the loaded modules, extracting a file keeps. -/
theorem holds_extraction {P : ModuleCache → Prop}
    (h : ∀ cache name, P cache → P (cache.importNamed w.tree root name).2) (mode : ExportMode)
    (policy : Policy) (importRoot : Path) {cache : ModuleCache} (unit : SourceUnit)
    (hc : P cache) : P (w.extraction mode policy importRoot root cache unit).2 := by
  unfold extraction
  split
  · exact hc
  · exact hc
  · rename_i t _
    have himport := h cache t.moduleName hc
    unfold typeExtraction
    dsimp only
    split <;> exact himport

theorem holds_extractions {P : ModuleCache → Prop}
    (h : ∀ cache name, P cache → P (cache.importNamed w.tree root name).2) (mode : ExportMode)
    (policy : Policy) (importRoot : Path) {cache : ModuleCache} (units : List SourceUnit)
    (hc : P cache) : P (w.extractions mode policy importRoot root cache units).2 := by
  induction units generalizing cache with
  | nil => exact hc
  | cons unit rest ih =>
    have hfirst := holds_extraction h mode policy importRoot unit hc
    unfold extractions
    generalize w.extraction mode policy importRoot root cache unit = first at hfirst ⊢
    obtain ⟨result, middle⟩ := first
    cases result with
    | error failure => exact hfirst
    | ok e =>
      have hothers := ih hfirst
      dsimp only at hothers ⊢
      generalize w.extractions mode policy importRoot root middle rest = others at hothers ⊢
      obtain ⟨result, last⟩ := others
      cases result <;> exact hothers

/-- What the steps of imports obey, the modules obey that are loaded for a file. -/
theorem obeys_extraction {R : ModuleCache → ModuleCache → Prop}
    (h : ModuleCache.IsObeyed w.tree root R) (mode : ExportMode) (policy : Policy)
    (importRoot : Path) (cache : ModuleCache) (unit : SourceUnit) :
    R cache (w.extraction mode policy importRoot root cache unit).2 :=
  holds_extraction (fun middle name hm => h.trans hm (h.importNamed middle name)) mode policy
    importRoot unit (h.refl cache)

/-- Each result is what its file gives with the modules that are loaded by then. -/
theorem extraction_of_getElem? {cache : ModuleCache} {es : List Extraction} {e : Extraction}
    {i : Nat} (h : (w.extractions mode policy importRoot root cache units).1 = .ok es)
    (he : es[i]? = some e) :
    ∃ unit, units[i]? = some unit ∧ w.extraction mode policy importRoot root
        (w.extractions mode policy importRoot root cache (units.take i)).2 unit =
      (.ok e, (w.extractions mode policy importRoot root cache (units.take (i + 1))).2) := by
  induction units generalizing cache es i with
  | nil =>
    cases h
    cases he
  | cons unit rest ih =>
    unfold extractions at h
    cases hfirst : w.extraction mode policy importRoot root cache unit with | mk result after =>
    rw [hfirst] at h
    cases result with
    | error failure => cases h
    | ok first =>
      cases hothers : w.extractions mode policy importRoot root after rest with | mk others last =>
      dsimp only at h
      rw [hothers] at h
      cases others with
      | error failure => cases h
      | ok others =>
        cases h
        cases i with
        | zero =>
          cases he
          exact ⟨unit, rfl, by simp [extractions, hfirst]⟩
        | succ i =>
          have hall : (w.extractions mode policy importRoot root after rest).1 = .ok others := by
            rw [hothers]
          obtain ⟨unit', hunit, hextraction⟩ := ih (i := i) hall (by simpa using he)
          have hsnd (units : List SourceUnit) :
              (w.extractions mode policy importRoot root cache (unit :: units)).2 =
                (w.extractions mode policy importRoot root after units).2 := by
            simp only [extractions, hfirst]
            split <;> rename_i hall <;> rw [hall]
          exact ⟨unit', hunit, by rw [List.take_succ_cons, List.take_succ_cons, hsnd, hsnd,
            hextraction]⟩

theorem exists_cache_of_mem_extractions {cache : ModuleCache} {es : List Extraction}
    {e : Extraction} (h : (w.extractions mode policy importRoot root cache units).1 = .ok es)
    (he : e ∈ es) :
    ∃ unit ∈ units, ∃ loaded, (w.extraction mode policy importRoot root loaded unit).1 = .ok e ∧
      ∀ {R}, ModuleCache.IsObeyed w.tree root R → R cache loaded := by
  obtain ⟨i, hi⟩ := List.mem_iff_getElem?.mp he
  obtain ⟨unit, hunit, hextraction⟩ := extraction_of_getElem? h hi
  refine ⟨unit, List.mem_of_getElem? hunit, _, by rw [hextraction], fun hR => ?_⟩
  exact holds_extractions (fun middle name hm => hR.trans hm (hR.importNamed middle name)) mode
    policy importRoot (units.take i) (hR.refl cache)

/-- What files give one after the other whose types are known. -/
def typeExtractions (tree : Tree) (mode : ExportMode) (policy : Policy) (root : Location)
    (cache : ModuleCache) :
    List (SourceUnit × ResolvedType) → Except Failure (List Extraction) × ModuleCache
  | [] => (.ok [], cache)
  | (unit, t) :: rest =>
    match typeExtraction tree mode policy root cache unit t with
    | (.error failure, cache) => (.error failure, cache)
    | (.ok e, cache) =>
      match typeExtractions tree mode policy root cache rest with
      | (.error failure, cache) => (.error failure, cache)
      | (.ok es, cache) => (.ok (e :: es), cache)

theorem extractions_of_types {typed : List (SourceUnit × ResolvedType)}
    (h : ∀ f ∈ typed, (w.resolveType (.ofLocation f.1.path) importRoot mode.baseNames?).1 =
      .ok (some f.2)) (policy : Policy) (cache : ModuleCache) :
    w.extractions mode policy importRoot root cache (typed.map Prod.fst) =
      typeExtractions w.tree mode policy root cache typed := by
  induction typed generalizing cache with
  | nil => rfl
  | cons f rest ih =>
    obtain ⟨hfirst, hrest⟩ := List.forall_mem_cons.mp h
    simp only [List.map_cons, extractions, typeExtractions, extraction, hfirst, ih hrest]

theorem logOutcome_modules (v : World) (report : ExportReport) (e : Extraction) :
    (v.logOutcome report e).modules = v.modules := by
  unfold logOutcome
  dsimp only
  split
  · rfl
  · split <;> rfl

theorem IsInBlock.extractAll (h : w.IsInBlock root v) (mode : ExportMode) (policy : Policy)
    (importRoot : Path) (report : ExportReport) (units : List SourceUnit) :
    (v.extractAll mode policy importRoot report units).1 =
        (w.extractions mode policy importRoot root v.modules units).1.map
          (List.foldl ExportReport.add report) ∧
      (v.extractAll mode policy importRoot report units).2.modules =
        (w.extractions mode policy importRoot root v.modules units).2 := by
  induction units generalizing v report with
  | nil => exact ⟨rfl, rfl⟩
  | cons unit rest ih =>
    have hread := reads_extract v mode policy importRoot unit
    have hpure := h.extract mode policy importRoot unit
    unfold World.extractAll extractions
    generalize v.extract mode policy importRoot unit = extracted at hread hpure ⊢
    obtain ⟨result, after⟩ := extracted
    rw [← hpure]
    cases result with
    | error failure => exact ⟨rfl, rfl⟩
    | ok e =>
      have hnext := (h.of_reads hread).of_reads ((Reads.refl after).logOutcome report e)
      obtain ⟨hresult, hmodules⟩ := ih hnext (report.add e)
      rw [logOutcome_modules] at hresult hmodules
      dsimp only
      rw [hresult, hmodules]
      generalize w.extractions mode policy importRoot root after.modules rest = others
      obtain ⟨result, last⟩ := others
      cases result <;> exact ⟨rfl, rfl⟩

theorem results_foldl_add (es : List Extraction) (report : ExportReport) :
    (es.foldl ExportReport.add report).results = report.results ++ es := by
  induction es generalizing report with
  | nil => simp
  | cons e rest ih =>
    have hadd : (report.add e).results = report.results ++ [e] := by
      unfold ExportReport.add
      split <;> rfl
    rw [List.foldl_cons, ih, hadd, List.append_assoc, List.singleton_append]

end World

namespace Exporter

variable {w : World} {x : Exporter} {o : ExportOptions} {units : List SourceUnit} {root : Location}
  {report : ExportReport}

/-- Collecting gives what the files give one after the other, if the cleanup behind them succeeds. -/
theorem fst_collect (hu : w.sourceFiles o.sourceRoot x.extension x.label = .ok units)
    (hr : w.resolve o.importRoot = .ok root) :
    let block := w.extractions x.mode (x.policyFor o) o.importRoot root w.modules units
    (x.collect o w).1 = (block.2.cleanUp w.modules w.tree w.cwd root).1.mapError Failure.cleanup
      >>= fun _ => block.1.map (List.foldl ExportReport.add {}) := by
  have hreads := World.reads_extractAll (w.opened root) x.mode (x.policyFor o) o.importRoot {} units
  obtain ⟨hresult, hmodules⟩ := (w.isInBlock_opened root).extractAll x.mode (x.policyFor o)
    o.importRoot {} units
  have ht : ((w.opened root).extractAll x.mode (x.policyFor o) o.importRoot {} units).2.tree =
    w.tree := hreads.tree
  have hc : ((w.opened root).extractAll x.mode (x.policyFor o) o.importRoot {} units).2.cwd =
    w.cwd := hreads.cwd
  dsimp only
  rw [World.opened] at ht hc hresult hmodules
  simp only [collect, hu, hr, World.importingFrom, ht, hc, hresult, hmodules]
  generalize w.extractions x.mode (x.policyFor o) o.importRoot root w.modules units = block
  obtain ⟨result, cache⟩ := block
  dsimp only
  generalize cache.cleanUp w.modules w.tree w.cwd root = cleaned
  obtain ⟨ending, modules⟩ := cleaned
  cases ending with
  | error fault => rfl
  | ok => cases result <;> rfl

/-- Collecting where the types of all files are known. -/
theorem fst_collect_of_types (typed : List (SourceUnit × ResolvedType))
    {result : Except Failure (List Extraction)} (hw : w.IsFresh)
    (hu : w.sourceFiles o.sourceRoot x.extension x.label = .ok (typed.map Prod.fst))
    (hr : w.resolve o.importRoot = .ok root)
    (ht : ∀ f ∈ typed,
      (w.resolveType (.ofLocation f.1.path) o.importRoot x.mode.baseNames?).1 = .ok (some f.2))
    (he : (World.typeExtractions w.tree x.mode (x.policyFor o) root [] typed).1 = result)
    (hc : ((World.typeExtractions w.tree x.mode (x.policyFor o) root [] typed).2.cleanUp [] w.tree
      w.cwd root).1 = .ok ()) :
    (x.collect o w).1 = result.map (List.foldl ExportReport.add {}) := by
  rw [fst_collect hu hr, hw.modules, World.extractions_of_types ht]
  simp only [he, hc, Except.mapError, bind, Except.bind]

/-- A report is what extracting all files has given. -/
theorem exists_extractAll_of_collect (h : (x.collect o w).1 = .ok report) :
    ∃ units root, w.sourceFiles o.sourceRoot x.extension x.label = .ok units ∧
      w.resolve o.importRoot = .ok root ∧
      ((w.opened root).extractAll x.mode (x.policyFor o) o.importRoot {} units).1 =
        .ok report := by
  cases hu : w.sourceFiles o.sourceRoot x.extension x.label with
  | error failure => simp [collect, hu] at h
  | ok units =>
    cases hr : w.resolve o.importRoot with
    | error failure => simp [collect, hu, hr] at h
    | ok root =>
      refine ⟨units, root, rfl, rfl, ?_⟩
      simp only [collect, hu, hr, World.importingFrom] at h
      rw [World.opened]
      split at h
      · cases h
      · rename_i report after hblock
        cases h
        split at hblock
        · cases hblock
        · exact congrArg Prod.fst hblock

/-- The results of a report are what the files have given. -/
theorem exists_extractions_of_collect (h : (x.collect o w).1 = .ok report) :
    ∃ units root, w.sourceFiles o.sourceRoot x.extension x.label = .ok units ∧
      w.resolve o.importRoot = .ok root ∧
      (w.extractions x.mode (x.policyFor o) o.importRoot root w.modules units).1 =
        .ok report.results := by
  obtain ⟨units, root, hu, hr, hall⟩ := exists_extractAll_of_collect h
  refine ⟨units, root, hu, hr, ?_⟩
  have hpure := ((w.isInBlock_opened root).extractAll x.mode (x.policyFor o) o.importRoot {}
    units).1
  rw [hall] at hpure
  have hsame : (w.opened root).modules = w.modules := rfl
  rw [hsame] at hpure
  cases hes : (w.extractions x.mode (x.policyFor o) o.importRoot root w.modules units).1 with
  | error failure => simp [hes, Except.map] at hpure
  | ok es =>
    rw [hes] at hpure
    rw [Except.ok.inj hpure, World.results_foldl_add]
    rfl

end Exporter

namespace World

open SymbolExport.Text

theorem readSource_of_read {text : List Char} {path : Path} (w : World)
    (h : w.tree.read w.cwd path = .ok (encodeUtf8 text)) :
    w.readSource path = .ok (unifyLineEnds text) := by
  simp [readSource, h, decodeUtf8_encodeUtf8]

namespace IsFresh

variable {w : World}

theorem resolve_ofLocation {place : Location} (h : w.IsFresh) (hp : ".." ∉ place) :
    w.resolve (.ofLocation place) = .ok place := by
  simp [resolve, Tree.resolve_eq h.linkFree, Path.ofLocation, Path.isAbsolute,
    normalize_of_notMem hp, Except.mapError]

/-- A walk gives the files with the extension, in the places where they stand. -/
theorem sourceFiles_of_filesBelow {place : Location} {found : List (String × Location)}
    {extension label : String} (h : w.IsFresh) (hp : ".." ∉ place)
    (hs : w.expandHome (.ofLocation place) = .ok (.ofLocation place))
    (hd : w.tree.HasDirectoryAt place)
    (hb : (w.tree.at? place).map (Node.filesBelow place) = some found)
    (hf : ∀ entry ∈ found, ".." ∉ entry.2 ∧ w.tree.HasFileAt entry.2) :
    w.sourceFiles (.ofLocation place) extension label =
      .ok ((found.filter fun entry => Path.suffixOf entry.1 = extension).map
        fun entry => ⟨entry.2, extension⟩) := by
  have hdirectory : w.tree.isDirectory w.cwd (.ofLocation place) :=
    (Tree.isDirectory_ofLocation_iff h.linkFree hp).mpr hd
  obtain ⟨node, hnode, rfl⟩ := Option.map_eq_some_iff.mp hb
  have hunits : sourceUnits w.tree place extension =
      ((node.filesBelow place).filter fun entry => Path.suffixOf entry.1 = extension).map
        fun entry => ⟨entry.2, extension⟩ := by
    rw [sourceUnits, hnode, ← List.filterMap_eq_map, List.filterMap_filter]
    refine List.filterMap_congr fun entry hm => ?_
    obtain ⟨hparent, hfile⟩ := hf entry hm
    simp [(Tree.isFile_ofLocation_iff h.linkFree hparent).mpr hfile,
      Tree.realPlace_eq h.linkFree hparent]
  simp [sourceFiles, hs, hdirectory, h.resolve_ofLocation hp, hunits, bind, Except.bind, pure,
    Except.pure]

/-- The class of a file below the import root, by the words of its text. -/
theorem resolveType_of_file {text : List Char} {body : ModuleBody} {place root : Location}
    {bases? : Option (List String)} {t : ResolvedType}
    (h : w.IsFresh) (hp : ".." ∉ place) (hr : ".." ∉ root)
    (ha : w.tree.at? place = some (.file (encodeUtf8 text) body))
    (hs : unifyLineEnds text = text)
    (hm : moduleName? place root = .ok (some t.moduleName))
    (hw : (tokenize text).map (qualifiedName? bases? (some t.moduleName)) =
      .ok (some t.qualifiedName))
    (ht : ResolvedType.ofQualified t.qualifiedName = t) :
    (w.resolveType (.ofLocation place) (.ofLocation root) bases?).1 = .ok (some t) := by
  have hsource : w.readSource (.ofLocation place) = .ok text := by
    rw [w.readSource_of_read (Tree.read_ofLocation h.linkFree hp ha), hs]
  rw [fst_resolveType_of hsource (h.resolve_ofLocation hp) (h.resolve_ofLocation hr) hm hw, ht]

end IsFresh

/-- A package with a module and a class of one name. -/
def packageOfB : World :=
  let c (name : String) (attributes : Table Value) : Symbol :=
    .type ⟨⟨ClassLevel.firstSerial, name, attributes⟩, [ClassLevel.object], none⟩
  let file (source name : String) (c : Symbol) : Node :=
    .file (encodeUtf8 source.toList) { attributes := [(name, c)] }
  { tree := .directory [("p", .directory
      [("B.py", file "class X:\n    A = 1\n" "X" (c "X" [("A", .int 1)])),
       ("__init__.py", file "class B:\n    LIMIT = 2\n" "B" (c "B" [("LIMIT", .int 2)]))])]
    cwd := []
    home := [] }

def moduleB : SourceUnit := ⟨["p", "B.py"], sourceExtension⟩

def packageP : SourceUnit := ⟨["p", "__init__.py"], sourceExtension⟩

/-- Constants are exported from the package. -/
def exporterOfP : Exporter := { mode := .constants }

def optionsOfP : ExportOptions where
  sourceRoot := .ofLocation ["p"]
  outputPath := .ofLocation ["out.js"]
  importRoot := .ofLocation []

theorem isFresh_packageOfB : packageOfB.IsFresh :=
  ⟨rfl, by simp [packageOfB, Node.isLinkFree, Node.areLinkFree], by simp [packageOfB]⟩

theorem sourceFiles_packageOfB :
    packageOfB.sourceFiles optionsOfP.sourceRoot exporterOfP.extension exporterOfP.label =
      .ok [moduleB, packageP] := by
  have hsorted : ("B.py" : String) ≤ "__init__.py" := by decide
  have hbelow : (packageOfB.tree.at? ["p"]).map (Node.filesBelow ["p"]) =
      some [("B.py", moduleB.path), ("__init__.py", packageP.path)] := by
    simp [packageOfB, Node.at?, Node.entry?, Table.get?, Node.filesBelow, Node.filesInside,
      Node.isDirectory, sortByName, List.mergeSort_of_pairwise, hsorted, moduleB, packageP,
      isEntered, cacheDirectories]
  have hfiles : ∀ entry ∈ [("B.py", moduleB.path), ("__init__.py", packageP.path)],
      ".." ∉ entry.2 ∧ packageOfB.tree.HasFileAt entry.2 := by
    intro entry he
    rcases List.mem_pair.mp he with rfl | rfl <;> exact ⟨by decide, _, _, rfl⟩
  refine (isFresh_packageOfB.sourceFiles_of_filesBelow (by decide) rfl ⟨_, rfl⟩ hbelow
    hfiles).trans ?_
  exact congrArg Except.ok (by decide +kernel)

theorem resolveType_packageOfB :
    (packageOfB.resolveType (.ofLocation moduleB.path) (.ofLocation []) none).1 =
        .ok (some ⟨"p.B", "X"⟩) ∧
      (packageOfB.resolveType (.ofLocation packageP.path) (.ofLocation []) none).1 =
        .ok (some ⟨"p", "B"⟩) := by
  constructor
  · exact isFresh_packageOfB.resolveType_of_file (by decide) (by decide) rfl rfl rfl
      (by decide +kernel) (by decide +kernel)
  · exact isFresh_packageOfB.resolveType_of_file (by decide) (by decide) rfl rfl rfl
      (by decide +kernel) (by decide +kernel)

/-- The results of a run over the package: the module of the first file takes the place of the class
of the second one. -/
def resultsOfB : List Extraction :=
  [⟨moduleB, .exported ⟨"p.B", "X"⟩ "X" [("A", .int 1)]⟩, ⟨packageP, .unloadable ⟨"p", "B"⟩⟩]

theorem fst_collect_packageOfB :
    (exporterOfP.collect optionsOfP packageOfB).1 =
      .ok (resultsOfB.foldl ExportReport.add {}) := by
  obtain ⟨hmodule, hpackage⟩ := resolveType_packageOfB
  have hroot : packageOfB.resolve optionsOfP.importRoot = .ok [] :=
    isFresh_packageOfB.resolve_ofLocation (by decide)
  have hcollect := Exporter.fst_collect_of_types [(moduleB, ⟨"p.B", "X"⟩), (packageP, ⟨"p", "B"⟩)]
    isFresh_packageOfB sourceFiles_packageOfB hroot
    (List.forall_mem_cons.mpr ⟨hmodule, List.forall_mem_singleton.mpr hpackage⟩)
    (show _ = .ok resultsOfB by cbv) (by cbv)
  exact hcollect

end World

end SymbolExport
