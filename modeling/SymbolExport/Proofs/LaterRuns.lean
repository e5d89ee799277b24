import SymbolExport.Proofs.Output
import SymbolExport.Proofs.Recollect

/-!
What later runs see of an export. It adds no source to the tree that they read, so they collect what
they would have collected before it, unless its new directories are imported; and only files that
two exports both write depend on their order.
-/
namespace SymbolExport

/-- The sources of an export are searched in a directory. -/
def World.HasSourceRoot (w : World) (o : ExportOptions) : Prop :=
  ∃ source, w.expandHome o.sourceRoot = .ok source ∧ w.tree.isDirectory w.cwd source

/-- No name that a module imports comes to stand for something new below the import root. -/
def World.KeepsImports (w after : World) (o : ExportOptions) : Prop :=
  ∀ root, w.resolve o.importRoot = .ok root → w.tree.KeepsImports after.tree root

namespace Exporter

variable {w w' after : World} {x x' : Exporter} {o o' : ExportOptions} {r : ExportReport}

/-- All that collecting leaves is in the log. -/
theorem exists_log_of_collect {report : ExportReport} (h : w.IsFresh) (ht : w.tree.TellsOwnFiles)
    (hc : (x.collect o w).1 = .ok report) :
    ∃ log, x.collect o w = (.ok report, { w with log := log }) := by
  obtain ⟨-, htree⟩ := World.keeps_collect x o w
  have hrestores := h.restores_collect ht x o (by simp [hc])
  rw [← hc]
  generalize x.collect o w = collected at htree hrestores
  obtain ⟨result, middle⟩ := collected
  refine ⟨middle.log, ?_⟩
  dsimp only at htree hrestores ⊢
  rw [← htree, ← hrestores.cwd, ← hrestores.home, ← hrestores.refusal?, ← hrestores.encodeFault?,
    ← hrestores.searchPath, ← hrestores.modules]

theorem hasSourceRoot_of_collect {report : ExportReport} (h : (x.collect o w).1 = .ok report) :
    w.HasSourceRoot o := by
  unfold collect World.sourceFiles at h
  cases hs : w.expandHome o.sourceRoot with
  | error failure => simp [hs, bind, Except.bind] at h
  | ok source =>
    by_cases hd : w.tree.isDirectory w.cwd source
    · exact ⟨source, hs, hd⟩
    · simp [hs, hd, bind, Except.bind] at h

/-- A run writes what it collects; collecting has only left its log. -/
theorem exists_run_eq_writeReport {report : ExportReport} (h : w.IsFresh)
    (ht : w.tree.TellsOwnFiles) (hc : (x.collect o w).1 = .ok report) :
    ∃ log, x.run o w = x.writeReport o report { w with log := log } := by
  obtain ⟨log, hcollect⟩ := exists_log_of_collect h ht hc
  exact ⟨log, by simp only [run, hcollect]⟩

/-- A run succeeds if what it collects can be rendered and written. -/
theorem exists_run_of_collect {report : ExportReport} {text : List Char} {next : Log → World}
    (h : w.IsFresh) (htells : w.tree.TellsOwnFiles) (hc : (x.collect o w).1 = .ok report)
    (hne : report.entries ≠ []) (ht : renderModule report.entries = .ok text)
    (he : o.emitDeclarations = false)
    (hw : ∀ log, World.writeFile { w with log := log } o.outputPath text = (.ok (), next log)) :
    ∃ r log, x.run o w = (.ok r, next log) := by
  obtain ⟨log, hrun⟩ := exists_run_eq_writeReport h htells hc
  refine ⟨_, log, hrun.trans (writeReport_eq_ok_iff.mpr ⟨[(o.outputPath, text)], ?_, ?_, rfl⟩)⟩
  · simp [texts?, hne, ht, Except.toOption, he]
  · simp [World.writeTexts, hw]

/-- A successful run: what it collects, the texts of its entries, and what is written of them. -/
structure Succeeds (x : Exporter) (o : ExportOptions) (w : World) (r : ExportReport)
    (after : World) (texts : List (Path × List Char)) : Prop where
  collected : ∃ report, (x.collect o w).1 = .ok report ∧ x.texts? o report.entries = some texts ∧
    r = { report with written := report.written ++ texts.map Prod.fst }
  written : w.tree.Written after.tree (filesOf w.cwd texts) (waysOf w.cwd texts)
  admitted : ∀ t ∈ texts, w.Admits t.1 t.2
  restores : w.Restores after

theorem exists_succeeds (h : w.IsFresh) (ht : w.tree.TellsOwnFiles)
    (hcwd : w.tree.HasDirectoryAt w.cwd) (ho : o.outputPath.suffix ≠ sourceExtension)
    (hr : x.run o w = (.ok r, after)) : ∃ texts, x.Succeeds o w r after texts := by
  have hrestores := h.restores_export ht x o (by simp [hr])
  rw [hr] at hrestores
  cases hc : (x.collect o w).1 with
  | error failure =>
    unfold run at hr
    generalize x.collect o w = collected at hc hr
    obtain ⟨result, middle⟩ := collected
    dsimp only at hc
    subst hc
    cases hr
  | ok report =>
    obtain ⟨log, hrun⟩ := exists_run_eq_writeReport h ht hc
    rw [hrun] at hr
    obtain ⟨texts, htexts, hwritten, rfl⟩ := writeReport_eq_ok_iff.mp hr
    have hsuffix : ∀ t ∈ texts, t.1.suffix ≠ sourceExtension :=
      fun t ht => suffix_of_mem_targets ho (mem_targets_of_texts? htexts t ht)
    exact ⟨texts, ⟨report, hc, htexts, rfl⟩,
      World.written_writeTexts (w := { w with log := log }) h.linkFree hcwd hsuffix
        (pairwise_of_texts? htexts _) hwritten,
      World.admits_of_writeTexts (w := { w with log := log }) h.linkFree hwritten, hrestores⟩

namespace Succeeds

variable {texts texts' : List (Path × List Char)}

theorem sharesSources (h : x.Succeeds o w r after texts) : w.SharesSources after :=
  ⟨h.restores.cwd, h.restores.home, h.written.sameSources⟩

theorem hasSourceRoot (h : x.Succeeds o w r after texts) : w.HasSourceRoot o := by
  obtain ⟨report, hc, -, -⟩ := h.collected
  exact hasSourceRoot_of_collect hc

theorem hasDirectoryAt (h : x.Succeeds o w r after texts)
    (hcwd : w.tree.HasDirectoryAt w.cwd) : after.tree.HasDirectoryAt after.cwd := by
  rw [h.restores.cwd]
  exact h.written.sameSources.hasDirectoryAt hcwd

/-- What is collected afterwards is what would have been collected before. -/
theorem collect_eq (h : x.Succeeds o w r after texts) (hw : w.IsFresh)
    (hx' : x'.extension = sourceExtension) (hs : w.HasSourceRoot o')
    (hi : w.KeepsImports after o') : (x'.collect o' after).1 = (x'.collect o' w).1 := by
  obtain ⟨source, hs, hd⟩ := hs
  exact collect_eq_of_sharesSources h.sharesSources hw (hw.of_restores h.restores) hx' hs hd hi

/-- Running once more on what is there already writes the same once more. -/
theorem run_again (h : x.Succeeds o w r after texts) (hw : w.IsFresh)
    (ht : w.tree.TellsOwnFiles) (hx : x.extension = sourceExtension)
    (hi : w.KeepsImports after o) : ∃ again, x.run o after = (.ok r, again) ∧
      again.tree = after.tree := by
  have hfresh := hw.of_restores h.restores
  have hcollect := h.collect_eq hw hx h.hasSourceRoot hi
  obtain ⟨report, hc, htexts, hr⟩ := h.collected
  obtain ⟨log, hrun⟩ := exists_run_eq_writeReport hfresh (h.restores.tellsOwnFiles ht)
    (hcollect.trans hc)
  have hwritten : w.tree.Written after.tree (filesOf after.cwd texts) (waysOf after.cwd texts) := by
    rw [h.restores.cwd]
    exact h.written
  have hadmitted : ∀ t ∈ texts, after.Admits t.1 t.2 :=
    fun t ht => h.restores.admits_iff.mpr (h.admitted t ht)
  have hthere := World.hasText_of_written (w := { after with log := log }) hfresh.linkFree hwritten
    hadmitted
  exact ⟨{ after with log := log }, hrun.trans (writeReport_eq_ok_iff.mpr
    ⟨texts, htexts, World.writeTexts_of_hasText hfresh.linkFree hthere, hr⟩), rfl⟩

/-- An export that comes later writes the texts that it would have written before. -/
theorem texts_eq {r' r'' : ExportReport} {later : World} (h : x.Succeeds o w r after texts)
    (h' : x'.Succeeds o' w r' w' texts')
    {texts'' : List (Path × List Char)} (h'' : x'.Succeeds o' after r'' later texts'')
    (hw : w.IsFresh) (hx' : x'.extension = sourceExtension) (hi : w.KeepsImports after o') :
    texts'' = texts' ∧ r'' = r' := by
  have hcollect := h.collect_eq hw hx' h'.hasSourceRoot hi
  obtain ⟨report', hc', htexts', rfl⟩ := h'.collected
  obtain ⟨report'', hc'', htexts'', rfl⟩ := h''.collected
  rw [hc', hc''] at hcollect
  cases hcollect
  rw [htexts'] at htexts''
  cases htexts''
  exact ⟨rfl, rfl⟩

theorem mem_targets (h : x.Succeeds o w r after texts) : ∀ t ∈ texts, t.1 ∈ o.targets := by
  obtain ⟨report, -, htexts, -⟩ := h.collected
  exact mem_targets_of_texts? htexts

/-- Two exports to different files leave the same, whichever of them comes first. -/
theorem surface_eq {s s' : ExportReport} {last last' : World} {r' : ExportReport}
    (h : x.Succeeds o w r after texts) (h' : x'.Succeeds o' w r' w' texts')
    (hlast : x'.Succeeds o' after s last texts') (hlast' : x.Succeeds o w' s' last' texts)
    (hd : ∀ p ∈ o.targets, ∀ p' ∈ o'.targets, p.place w.cwd ≠ p'.place w.cwd) (q : Location) :
    last.tree.surface q = last'.tree.surface q := by
  have hfiles : ∀ f ∈ filesOf w.cwd texts, ∀ g ∈ filesOf w.cwd texts', f.1 ≠ g.1 := by
    intro f hf g hg
    obtain ⟨t, ht, rfl⟩ := List.mem_map.mp hf
    obtain ⟨u, hu, rfl⟩ := List.mem_map.mp hg
    exact hd _ (h.mem_targets t ht) _ (h'.mem_targets u hu)
  have hwritten := hlast.written
  have hwritten' := hlast'.written
  rw [h.restores.cwd] at hwritten
  rw [h'.restores.cwd] at hwritten'
  refine (h.written.trans hwritten hfiles).surface_eq
    (h'.written.trans hwritten' fun f hf g hg => (hfiles g hg f hf).symm) ?_ ?_ q
  · intro f
    rw [List.mem_append, List.mem_append, or_comm]
  · exact fun q => or_comm

end Succeeds

/-- A module that imports the directory of an export can be imported once that is there. -/
example :
    let c : Class := ⟨⟨ClassLevel.firstSerial, "S", [("A", .int 1)]⟩, [.object], none⟩
    let status : Node := .file [] { imports := ["app.made"], attributes := [("S", .type c)] }
    let tree (made : List (String × Node)) : Tree :=
      .directory [("app", .directory (("status.py", status) :: made))]
    let unit : SourceUnit := ⟨["app", "status.py"], sourceExtension⟩
    let t : ResolvedType := ⟨"app.status", "S"⟩
    let made : Node := .directory [("out.js", .file [] {})]
    (World.typeExtraction (tree []) .constants {} [] [] unit t).1 = .ok ⟨unit, .unloadable t⟩ ∧
      (World.typeExtraction (tree [("made", made)]) .constants {} [] [] unit t).1 =
        .ok ⟨unit, .exported t "S" [("A", .int 1)]⟩ := by
  constructor <;> cbv

end Exporter

namespace World

open SymbolExport.Text

def classNamed (name : String) : Class :=
  ⟨⟨ClassLevel.firstSerial, name, [("V", .int 1)]⟩, [ClassLevel.object], none⟩

def sourceText (className : String) : List Char :=
  ("class " ++ className ++ ":\n").toList

/-- A package with a class and a module, texts that are named after the class, the module and the
package, and what else is in it and beside it. -/
def packageOfA (more beside : List (String × Node)) (log : Log) : World :=
  let text (name : String) (attributes : Table Symbol) : Node :=
    .file (encodeUtf8 (sourceText name)) { attributes := attributes }
  let package : Node := .directory
    ([("A.txt", text "Z" []),
      ("B.py", text "X" [("X", .type (classNamed "X"))]), ("B.txt", text "X" []),
      ("__init__.py", text "A" [("A", .type (classNamed "A"))]), ("__init__.txt", text "A" [])] ++
        more)
  { tree := .directory (("p", package) :: beside)
    cwd := []
    home := []
    log := log }

/-- Entries without links, and without modules that tell another file for their own. -/
def IsPlain (entries : List (String × Node)) : Prop :=
  (Node.directory entries).isLinkFree ∧ (Node.directory entries).TellsOwnFiles

theorem isPlain_nil : IsPlain [] :=
  ⟨rfl, by simp [Node.tellsOwnFiles_directory_iff]⟩

/-- A module that is written into a directory with the name of the class. -/
def moduleInA (content : List UInt8) : List (String × Node) :=
  [("A", .directory [("out.js", .file content {})])]

/-- A module that is written beside the package. -/
def moduleBeside (content : List UInt8) : List (String × Node) :=
  [("out.js", .file content {})]

theorem isPlain_moduleBeside (content : List UInt8) : IsPlain (moduleBeside content) :=
  ⟨rfl, by simp [moduleBeside, Node.tellsOwnFiles_directory_iff, Node.tellsOwnFiles_file_iff,
    Table.get?]⟩

def textZ : SourceUnit := ⟨["p", "A.txt"], ".txt"⟩

def textX : SourceUnit := ⟨["p", "B.txt"], ".txt"⟩

def textA : SourceUnit := ⟨["p", "__init__.txt"], ".txt"⟩

/-- An exporter that takes texts for sources. -/
def textExporter : Exporter := { mode := .constants, extension := ".txt" }

def optionsOfA : ExportOptions := { optionsOfP with outputPath := .ofLocation ["p", "A", "out.js"] }

variable {content : List UInt8} {more beside : List (String × Node)} {log : Log}
  {o : ExportOptions} {text : List Char}

theorem isFresh_packageOfA (log : Log) (hb : IsPlain beside)
    (hm : more ∈ [[], moduleInA content]) : (packageOfA more beside log).IsFresh := by
  have hlinks : Node.areLinkFree beside := hb.1
  refine ⟨rfl, ?_, by simp [packageOfA]⟩
  rcases List.mem_pair.mp hm with rfl | rfl <;>
    simp [packageOfA, moduleInA, Node.isLinkFree, Node.areLinkFree, hlinks]

theorem tellsOwnFiles_packageOfA (log : Log) (hb : IsPlain beside)
    (hm : more ∈ [[], moduleInA content]) : (packageOfA more beside log).tree.TellsOwnFiles := by
  have hbeside := Node.tellsOwnFiles_directory_iff.mp hb.2
  rw [packageOfA, Node.tellsOwnFiles_directory_iff, List.forall_mem_cons]
  refine ⟨?_, hbeside⟩
  rcases List.mem_pair.mp hm with rfl | rfl <;>
    simp [moduleInA, Node.tellsOwnFiles_directory_iff, Node.tellsOwnFiles_file_iff, Table.get?,
      fileAttribute]

/-- The files of the package by name, and then that of the directory in it, if it is there. -/
def filesOfA (isAlone : Bool) : List (String × Location) :=
  [("A.txt", textZ.path), ("B.py", moduleB.path), ("B.txt", textX.path),
    ("__init__.py", packageP.path), ("__init__.txt", textA.path)] ++
      if isAlone then [] else [("out.js", ["p", "A", "out.js"])]

theorem filesBelow_packageOfA (hm : more ∈ [[], moduleInA content]) :
    ((packageOfA more beside log).tree.at? ["p"]).map (Node.filesBelow ["p"]) =
      some (filesOfA more.isEmpty) := by
  rcases List.mem_pair.mp hm with rfl | rfl <;>
    simp [packageOfA, moduleInA, filesOfA, textZ, moduleB, textX, packageP, textA, Node.at?,
      Node.entry?, Table.get?, Node.filesBelow, Node.filesInside, Node.isDirectory, sortByName,
      List.mergeSort, isEntered, cacheDirectories]

theorem hasFileAt_packageOfA (hm : more ∈ [[], moduleInA content]) :
    ∀ entry ∈ filesOfA more.isEmpty,
      ".." ∉ entry.2 ∧ (packageOfA more beside log).tree.HasFileAt entry.2 := by
  rcases List.mem_pair.mp hm with rfl | rfl
  · simp only [filesOfA, List.isEmpty_nil, if_true, List.append_nil, List.forall_mem_cons]
    exact ⟨⟨by decide, _, _, rfl⟩, ⟨by decide, _, _, rfl⟩, ⟨by decide, _, _, rfl⟩,
      ⟨by decide, _, _, rfl⟩, ⟨by decide, _, _, rfl⟩, by simp⟩
  · simp only [filesOfA, moduleInA, List.isEmpty_cons, Bool.false_eq_true, if_false,
      List.cons_append, List.nil_append, List.forall_mem_cons]
    exact ⟨⟨by decide, _, _, rfl⟩, ⟨by decide, _, _, rfl⟩, ⟨by decide, _, _, rfl⟩,
      ⟨by decide, _, _, rfl⟩, ⟨by decide, _, _, rfl⟩, ⟨by decide, _, _, rfl⟩, by simp⟩

theorem sourceFiles_packageOfA (log : Log) (hb : IsPlain beside)
    (hm : more ∈ [[], moduleInA content]) (ho : o ∈ [optionsOfA, optionsOfP])
    (extension label : String) :
    (packageOfA more beside log).sourceFiles o.sourceRoot extension label =
      .ok (((filesOfA more.isEmpty).filter fun entry => Path.suffixOf entry.1 = extension).map
        fun entry => ⟨entry.2, extension⟩) := by
  obtain rfl | rfl := List.mem_pair.mp ho <;>
    exact (isFresh_packageOfA log hb hm).sourceFiles_of_filesBelow (by decide) rfl ⟨_, rfl⟩
      (filesBelow_packageOfA hm) (hasFileAt_packageOfA hm)

/-- The sources of the package, each with the class that it declares. -/
def typesOfA : List (SourceUnit × ResolvedType) :=
  [(textZ, ⟨"p.A", "Z"⟩), (moduleB, ⟨"p.B", "X"⟩), (textX, ⟨"p.B", "X"⟩), (packageP, ⟨"p", "A"⟩),
    (textA, ⟨"p", "A"⟩)]

theorem moduleName?_typesOfA : ∀ f ∈ typesOfA,
    ".." ∉ f.1.path ∧ moduleName? f.1.path [] = .ok (some f.2.moduleName) ∧
      unifyLineEnds (sourceText f.2.name) = sourceText f.2.name := by
  simp only [typesOfA, List.forall_mem_cons]
  exact ⟨⟨by decide, rfl, rfl⟩, ⟨by decide, rfl, rfl⟩, ⟨by decide, rfl, rfl⟩,
    ⟨by decide, rfl, rfl⟩, ⟨by decide, rfl, rfl⟩, by simp⟩

theorem qualifiedName?_typesOfA : ∀ f ∈ typesOfA,
    (tokenize (sourceText f.2.name)).map (qualifiedName? none (some f.2.moduleName)) =
        .ok (some f.2.qualifiedName) ∧
      ResolvedType.ofQualified f.2.qualifiedName = f.2 := by
  decide +kernel

theorem at?_packageOfA (hm : more ∈ [[], moduleInA content]) : ∀ f ∈ typesOfA,
    ∃ body, (packageOfA more beside log).tree.at? f.1.path =
      some (.file (encodeUtf8 (sourceText f.2.name)) body) := by
  rcases List.mem_pair.mp hm with rfl | rfl <;>
    simp only [typesOfA, List.forall_mem_cons] <;>
    exact ⟨⟨_, rfl⟩, ⟨_, rfl⟩, ⟨_, rfl⟩, ⟨_, rfl⟩, ⟨_, rfl⟩, by simp⟩

theorem resolveType_packageOfA (log : Log) (hb : IsPlain beside)
    (hm : more ∈ [[], moduleInA content]) : ∀ f ∈ typesOfA,
      ((packageOfA more beside log).resolveType (.ofLocation f.1.path) (.ofLocation []) none).1 =
        .ok (some f.2) := by
  intro f hf
  obtain ⟨hparent, hmodule, htext⟩ := moduleName?_typesOfA f hf
  obtain ⟨hname, hcut⟩ := qualifiedName?_typesOfA f hf
  obtain ⟨body, ha⟩ := at?_packageOfA hm f hf
  exact (isFresh_packageOfA log hb hm).resolveType_of_file hparent (by decide) ha htext hmodule
    hname hcut

/-- The results for the module and the package, or for the texts that are named after them. -/
def resultsOfA (before : List Extraction) (unitX unitA : SourceUnit) (isHidden : Bool) :
    List Extraction :=
  before ++ [⟨unitX, .exported ⟨"p.B", "X"⟩ "X" [("V", .int 1)]⟩,
    ⟨unitA, if isHidden then .unloadable ⟨"p", "A"⟩
      else .exported ⟨"p", "A"⟩ "A" [("V", .int 1)]⟩]

/-- Collecting the package, from what its types give one after the other. -/
theorem fst_collect_packageOfA {x : Exporter} (typed : List (SourceUnit × ResolvedType))
    {es : List Extraction} (log : Log) (hb : IsPlain beside) (hm : more ∈ [[], moduleInA content])
    (ho : o ∈ [optionsOfA, optionsOfP]) (hx : x.mode = .constants)
    (hu : ((filesOfA more.isEmpty).filter fun entry => Path.suffixOf entry.1 = x.extension).map
      (fun entry => ⟨entry.2, x.extension⟩) = typed.map Prod.fst)
    (ht : ∀ f ∈ typed, f ∈ typesOfA)
    (he : (typeExtractions (packageOfA more beside log).tree .constants {} [] [] typed).1 = .ok es)
    (hc : ((typeExtractions (packageOfA more beside log).tree .constants {} [] [] typed).2.cleanUp []
      (packageOfA more beside log).tree [] []).1 = .ok ()) :
    (x.collect o (packageOfA more beside log)).1 = .ok (.ofResults es) := by
  have hfresh := isFresh_packageOfA log hb hm
  obtain ⟨himport, hignore, hsuffix⟩ :
      o.importRoot = .ofLocation [] ∧ o.ignore = [] ∧ o.suffix = "" := by
    rcases List.mem_pair.mp ho with rfl | rfl <;> exact ⟨rfl, rfl, rfl⟩
  have hpolicy : x.policyFor o = {} := by
    rw [Exporter.policyFor, hx, hignore, hsuffix]
    rfl
  have hroot : (packageOfA more beside log).resolve o.importRoot = .ok [] := by
    rw [himport]
    exact hfresh.resolve_ofLocation (by simp)
  have htypes : ∀ f ∈ typed, ((packageOfA more beside log).resolveType (.ofLocation f.1.path)
      o.importRoot x.mode.baseNames?).1 = .ok (some f.2) := by
    rw [himport, hx]
    exact fun f hf => resolveType_packageOfA log hb hm f (ht f hf)
  have hcollect := Exporter.fst_collect_of_types typed hfresh
    ((sourceFiles_packageOfA log hb hm ho x.extension x.label).trans (congrArg Except.ok hu))
    hroot htypes (by rw [hx, hpolicy]) (by rw [hx, hpolicy]; exact hc)
  rw [hcollect, he, ← ExportReport.foldl_add_empty]
  rfl

theorem fst_collect_exporterOfP (log : Log) (hb : IsPlain beside)
    (hm : more ∈ [[], moduleInA content]) (ho : o ∈ [optionsOfA, optionsOfP]) :
    (exporterOfP.collect o (packageOfA more beside log)).1 =
      .ok (.ofResults (resultsOfA [] moduleB packageP false)) := by
  refine fst_collect_packageOfA [(moduleB, ⟨"p.B", "X"⟩), (packageP, ⟨"p", "A"⟩)] log hb hm ho rfl ?_
    (by simp [typesOfA]) ?_ ?_
  · cases more.isEmpty <;> rfl
  · rcases List.mem_pair.mp hm with rfl | rfl <;> cbv
  · rcases List.mem_pair.mp hm with rfl | rfl <;> cbv

/-- The first text loads the package of the directory, if there is one; it stands in the place of
the class then. -/
theorem fst_collect_textExporter (log : Log) (hb : IsPlain beside)
    (hm : more ∈ [[], moduleInA content]) (ho : o ∈ [optionsOfA, optionsOfP]) :
    (textExporter.collect o (packageOfA more beside log)).1 = .ok (.ofResults
      (resultsOfA [⟨textZ, .unloadable ⟨"p.A", "Z"⟩⟩] textX textA !more.isEmpty)) := by
  refine fst_collect_packageOfA
    [(textZ, ⟨"p.A", "Z"⟩), (textX, ⟨"p.B", "X"⟩), (textA, ⟨"p", "A"⟩)] log hb hm ho rfl
    ?_ (by simp [typesOfA]) ?_ ?_
  · cases more.isEmpty <;> rfl
  · rcases List.mem_pair.mp hm with rfl | rfl <;> cbv
  · rcases List.mem_pair.mp hm with rfl | rfl <;> cbv

/-- The entries of the package, without its own class if that is hidden. -/
def entriesOfA (isHidden : Bool) : ExportTable :=
  ("X", [("V", .int 1)]) :: if isHidden then [] else [("A", [("V", .int 1)])]

theorem exists_renderModule_entriesOfA (isHidden : Bool) : ∃ text,
    renderModule (entriesOfA isHidden) = .ok text ∧
      (encodeUtf8 text).length = if isHidden then 34 else 68 := by
  have hlength : (renderModule (entriesOfA isHidden)).toOption.map
      (fun text => (encodeUtf8 text).length) = some (if isHidden then 34 else 68) := by
    cases isHidden <;> decide +kernel
  cases hr : renderModule (entriesOfA isHidden) with
  | error e => simp [hr, Except.toOption] at hlength
  | ok text => exact ⟨text, rfl, by simpa [hr, Except.toOption] using hlength⟩

theorem exists_run_exporterOfP {next : Log → World} (log : Log) (hb : IsPlain beside)
    (hm : more ∈ [[], moduleInA content]) (ho : o ∈ [optionsOfA, optionsOfP])
    (ht : renderModule (entriesOfA false) = .ok text)
    (hw : ∀ log, (packageOfA more beside log).writeFile o.outputPath text = (.ok (), next log)) :
    ∃ r log', exporterOfP.run o (packageOfA more beside log) = (.ok r, next log') := by
  have hemit : o.emitDeclarations = false := by
    rcases List.mem_pair.mp ho with rfl | rfl <;> rfl
  exact Exporter.exists_run_of_collect (isFresh_packageOfA log hb hm)
    (tellsOwnFiles_packageOfA log hb hm) (fst_collect_exporterOfP log hb hm ho)
    (List.cons_ne_nil _ _) ht hemit hw

theorem exists_run_textExporter {next : Log → World} (log : Log) (hb : IsPlain beside)
    (hm : more ∈ [[], moduleInA content]) (ho : o ∈ [optionsOfA, optionsOfP])
    (ht : renderModule (entriesOfA !more.isEmpty) = .ok text)
    (hw : ∀ log, (packageOfA more beside log).writeFile o.outputPath text = (.ok (), next log)) :
    ∃ r log', textExporter.run o (packageOfA more beside log) = (.ok r, next log') := by
  have hemit : o.emitDeclarations = false := by
    rcases List.mem_pair.mp ho with rfl | rfl <;> rfl
  have hentries : (ExportReport.ofResults (resultsOfA [⟨textZ, .unloadable ⟨"p.A", "Z"⟩⟩] textX
      textA !more.isEmpty)).entries = entriesOfA !more.isEmpty := by
    cases more.isEmpty <;> rfl
  refine Exporter.exists_run_of_collect (isFresh_packageOfA log hb hm)
    (tellsOwnFiles_packageOfA log hb hm) (fst_collect_textExporter log hb hm ho) ?_
    (by rw [hentries, ht]) hemit hw
  rw [hentries]
  exact List.cons_ne_nil _ _

theorem writeFile_outputOfA (text : List Char) (hm : more ∈ [[], moduleInA content]) (log : Log) :
    (packageOfA more beside log).writeFile optionsOfA.outputPath text =
      (.ok (), packageOfA (moduleInA (encodeUtf8 text)) beside log) := by
  rcases List.mem_pair.mp hm with rfl | rfl <;> cbv

theorem writeFile_outputOfP (text : List Char) (log : Log) :
    (packageOfA more [] log).writeFile optionsOfP.outputPath text =
      (.ok (), packageOfA more (moduleBeside (encodeUtf8 text)) log) := by cbv

/-- The two exports write different files, which are no sources. -/
theorem targets_optionsOfA :
    (∀ o ∈ [optionsOfA, optionsOfP], o.outputPath.suffix ≠ sourceExtension) ∧
      ∀ p ∈ optionsOfA.targets, ∀ p' ∈ optionsOfP.targets, p.place [] ≠ p'.place [] := by
  decide

end World

end SymbolExport
