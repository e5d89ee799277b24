import SymbolExport.Proofs.UnitName

/-!
The module that is imported for a source file. It is loaded from the file itself unless a package of
the same name stands beside the file, for that is found first.
-/
namespace SymbolExport

/-- The initial file of a package that has the name of a module file and stands beside it. -/
def packageBeside (file : Location) : Location :=
  file.dropLast ++ [Path.stemOf (file.getLast?.getD ""), initialFile]

/-- The file that is evaluated when the module of a source file is imported. -/
def Tree.loadedFile (tree : Tree) (file : Location) : Location :=
  if file.getLast? ≠ some initialFile ∧ tree.isFile [] (.ofLocation (packageBeside file)) then
    packageBeside file
  else file

variable {tree : Tree} {root file : Location} {moduleName : String} {origin : ModuleOrigin}

variable {directories : List String} {last : String}

/-- A package that is named after its initial file is loaded from that. -/
theorem file?_of_initialFile
    (hfile : tree.isFile [] (.ofLocation (root ++ directories ++ [initialFile])))
    (hne : directories ≠ []) (ho : tree.namedOrigin? root directories.reverse = some origin) :
    origin.file? = some (root ++ directories ++ [initialFile]) := by
  obtain ⟨outer, package, rfl⟩ := (List.eq_nil_or_concat' directories).resolve_left hne
  rw [List.reverse_concat, Tree.namedOrigin?, List.reverse_reverse] at ho
  have hfile' : tree.isFile [] (.ofLocation (root ++ outer ++ [package] ++ [initialFile])) := by
    simpa using hfile
  simp only [searchModule, hfile', if_true, Option.some.injEq] at ho
  simp [← ho, ModuleOrigin.file?]

/-- A module that is named after a file is loaded from that, unless there is a package beside it. -/
theorem file?_of_moduleFile (hfile : tree.isFile [] (.ofLocation (root ++ directories ++ [last])))
    (hlast : last = Path.stemOf last ++ moduleSuffix) (hname : last ≠ initialFile)
    (ho : tree.namedOrigin? root (directories ++ [Path.stemOf last]).reverse = some origin) :
    origin.file? = some (tree.loadedFile (root ++ directories ++ [last])) := by
  rw [List.reverse_concat, Tree.namedOrigin?, List.reverse_reverse] at ho
  have hbeside : packageBeside (root ++ directories ++ [last]) =
      root ++ directories ++ [Path.stemOf last] ++ [initialFile] := by
    simp [packageBeside]
  have hself : root ++ directories ++ [Path.stemOf last ++ moduleSuffix] =
      root ++ directories ++ [last] := by
    rw [← hlast]
  simp only [searchModule, ← hbeside, hself, hfile, if_true] at ho
  split at ho
  · rename_i hpackage
    cases ho
    rw [Tree.loadedFile, if_pos ⟨by simpa using hname, hpackage⟩, hbeside]
    rfl
  · rename_i hpackage
    cases ho
    rw [Tree.loadedFile, if_neg (fun h => hpackage h.2)]
    rfl

/-- Whatever is imported under the name of a source file comes from its loaded file. -/
theorem file?_of_namedOrigin? (hfile : tree.isFile [] (.ofLocation file))
    (hs : Path.suffixOf (file.getLast?.getD "") = sourceExtension)
    (hm : moduleName? file root = .ok (some moduleName))
    (ho : tree.namedOrigin? root (componentsOf moduleName) = some origin) :
    origin.file? = some (tree.loadedFile file) := by
  obtain ⟨directories, last, rfl, hcomponents, hn, -⟩ := components_of_moduleName? hm
  simp only [List.getLast?_concat, Option.getD_some] at hs
  have hlast := eq_stemOf_append hs
  rw [hcomponents] at ho hn
  by_cases hinit : Path.stemOf last = "__init__"
  · obtain rfl : last = initialFile := by rw [hlast, hinit]; rfl
    have hparts : dropInit (directories ++ [Path.stemOf initialFile]) = directories := by
      simp [dropInit, hinit]
    rw [hparts] at ho hn
    rw [file?_of_initialFile hfile (by simpa using hn.ne_nil) ho]
    simp [Tree.loadedFile]
  · have hname : last ≠ initialFile := by
      rintro rfl
      exact hinit (by decide +kernel)
    have hparts : dropInit (directories ++ [Path.stemOf last]) =
        directories ++ [Path.stemOf last] := by
      simp [dropInit, hinit]
    rw [hparts] at ho
    exact file?_of_moduleFile hfile hlast hname ho

/-- A mode takes classes alone, and reads those that have a definition. -/
theorem ExportMode.eq_type_or_bare_of_accepted {mode : ExportMode} {symbol : Symbol} {c : Class}
    (h : mode.accepted? symbol = some c) : symbol = .type c ∨ c = .bare := by
  unfold accepted? at h
  split at h
  · split at h
    · exact Or.inl (congrArg Symbol.type (Option.some.inj h))
    · cases h
  · exact Or.inl (congrArg Symbol.type (Option.some.inj h))
  · exact Or.inr (Option.some.inj h).symm
  · cases h

theorem ExportMode.members_bare (mode : ExportMode) : mode.members .bare = [] := by
  cases mode <;> rfl

theorem ExportMode.exists_class_of_outcome {mode : ExportMode} {policy : Policy}
    {t t' : ResolvedType} {symbol? : Option Symbol} {outputName : String} {members : MemberTable}
    (h : mode.outcome policy t symbol? = .exported t' outputName members) :
    t' = t ∧ ∃ c, symbol? = some (.type c) ∧ mode.accepted? (.type c) = some c ∧
      members = policy.normalize (mode.members c) := by
  unfold outcome at h
  split at h
  · cases h
  · rename_i c hc
    obtain ⟨symbol, hsymbol, haccepted⟩ := Option.bind_eq_some_iff.mp hc
    dsimp only at h
    split at h
    · cases h
    · rename_i hsome
      obtain rfl : symbol = .type c := by
        rcases eq_type_or_bare_of_accepted haccepted with htype | rfl
        · exact htype
        · simp [members_bare, Policy.normalize, Policy.filter, Table.ofEntries] at hsome
      cases h
      exact ⟨rfl, c, hsymbol, haccepted, rfl⟩

namespace World

variable {w : World} {mode : ExportMode} {policy : Policy} {importRoot : Path} {unit : SourceUnit}
  {e : Extraction} {t : ResolvedType} {outputName : String} {members : MemberTable}
  {cache : ModuleCache}

theorem attribute_of_lookedUp {imported : Except ImportFault LoadedModule} {name : String}
    {symbol : Symbol} (h : lookedUp name imported = .ok (some symbol)) :
    ∃ m, imported = .ok m ∧ m.attributes.get? name = some symbol := by
  unfold lookedUp at h
  split at h
  · split at h <;> cases h
  · cases h
  · rename_i m
    refine ⟨m, rfl, ?_⟩
    unfold LoadedModule.symbol? at h
    split at h
    · cases h
    · exact Except.ok.inj h

/-- What is exported is a class that its module has under the name of the type. -/
theorem exported_of_extraction
    (h : (w.extraction mode policy importRoot root cache unit).1 = .ok e)
    (hs : e.outcome = .exported t outputName members) :
    e.unit = unit ∧
      (w.resolveType (.ofLocation unit.path) importRoot mode.baseNames?).1 = .ok (some t) ∧
      ∃ m c, (cache.importNamed w.tree root t.moduleName).1 = .ok m ∧
        m.attributes.get? t.name = some (.type c) ∧ mode.accepted? (.type c) = some c ∧
        members = policy.normalize (mode.members c) := by
  unfold extraction at h
  split at h
  · cases h
  · cases h
    cases hs
  · rename_i found hfound
    unfold typeExtraction at h
    dsimp only at h
    split at h
    · cases h
    · rename_i symbol? hlooked
      cases h
      obtain ⟨rfl, c, rfl, haccepted, hmembers⟩ := mode.exists_class_of_outcome hs
      obtain ⟨m, himport, hattribute⟩ := attribute_of_lookedUp hlooked
      exact ⟨rfl, hfound, m, c, himport, hattribute, haccepted, hmembers⟩

theorem exists_mem_sourceUnits {p : Path} {extension label : String} {units : List SourceUnit}
    (h : w.sourceFiles p extension label = .ok units) (hu : unit ∈ units) :
    ∃ sourceRoot, unit ∈ sourceUnits w.tree sourceRoot extension := by
  unfold sourceFiles at h
  cases hp : w.expandHome p with
  | error failure => simp [hp, bind, Except.bind] at h
  | ok p =>
    simp only [hp, bind, Except.bind] at h
    split at h
    · cases hr : w.resolve p with
      | error failure => simp [hr] at h
      | ok sourceRoot =>
        simp only [hr, pure, Except.pure, Except.ok.injEq] at h
        exact ⟨sourceRoot, h ▸ hu⟩
    · cases h

/-- What a loaded module has is defined in a file. -/
theorem exists_body_of_attribute {m : LoadedModule} {name : String} {symbol : Symbol}
    (ha : (m.origin.body tree).attributes.get? name = some symbol)
    (hf : m.origin.file? = some file) :
    ∃ content body, tree.stat [] (.ofLocation file) = .ok (.file content body) ∧
      body.attributes.get? name = some symbol := by
  unfold ModuleOrigin.body at ha
  rw [hf, Option.map_some] at ha
  split at ha
  · rename_i content body hstat
    exact ⟨content, body, Option.some.inj hstat, ha⟩
  · cases ha

/-- The module that is imported for the type of a file. -/
theorem IsFresh.file?_of_importNamed {sourceRoot : Location} {m : LoadedModule}
    {bases? : Option (List String)} (h : w.IsFresh)
    (hu : unit ∈ sourceUnits w.tree sourceRoot sourceExtension)
    (hr : w.resolve importRoot = .ok root)
    (ht : (w.resolveType (.ofLocation unit.path) importRoot bases?).1 = .ok (some t))
    (hc : cache.Sound w.tree root)
    (hi : (cache.importNamed w.tree root t.moduleName).1 = .ok m) :
    m.origin.file? = some (w.tree.loadedFile unit.path) := by
  obtain ⟨directory, name, hpath, hsuffix⟩ := exists_name_of_mem_sourceUnits h.linkFree hu
  obtain ⟨hparent, hat⟩ := exists_file_of_mem_sourceUnits hu
  have hfile : w.tree.isFile [] (.ofLocation unit.path) :=
    (Tree.isFile_ofLocation_iff h.linkFree hparent).mpr hat
  exact file?_of_namedOrigin? hfile (by simpa [hpath] using hsuffix)
    (moduleName?_of_unit hu hr ht) (hc.namedOrigin?_of_import hi)

end World

namespace World

open SymbolExport.Text

def classX (value : Int) : Class :=
  ⟨⟨ClassLevel.firstSerial, "X", [("A", .int value)]⟩, [ClassLevel.object], none⟩

/-- A module file beside a package of the same name; both declare one class. -/
def moduleBesidePackage : World :=
  let file (value : Int) : Node :=
    .file (encodeUtf8 "class X:\n".toList) { attributes := [("X", .type (classX value))] }
  { tree := .directory [("src", .directory
      [("m", .directory [("__init__.py", file 2)]), ("m.py", file 1)])]
    cwd := []
    home := [] }

def fileM : SourceUnit := ⟨["src", "m.py"], sourceExtension⟩

def initialM : SourceUnit := ⟨["src", "m", "__init__.py"], sourceExtension⟩

def optionsOfM : ExportOptions where
  sourceRoot := .ofLocation ["src"]
  outputPath := .ofLocation ["out.js"]
  importRoot := .ofLocation []

theorem isFresh_moduleBesidePackage : moduleBesidePackage.IsFresh :=
  ⟨rfl, by simp [moduleBesidePackage, Node.isLinkFree, Node.areLinkFree],
    by simp [moduleBesidePackage]⟩

theorem sourceFiles_moduleBesidePackage :
    moduleBesidePackage.sourceFiles optionsOfM.sourceRoot exporterOfP.extension exporterOfP.label =
      .ok [fileM, initialM] := by
  have hsorted : ("m" : String) ≤ "m.py" := by decide
  have hbelow : (moduleBesidePackage.tree.at? ["src"]).map (Node.filesBelow ["src"]) =
      some [("m.py", fileM.path), ("__init__.py", initialM.path)] := by
    simp [moduleBesidePackage, Node.at?, Node.entry?, Table.get?, Node.filesBelow,
      Node.filesInside, Node.isDirectory, sortByName, List.mergeSort_of_pairwise, hsorted, fileM,
      initialM, isEntered, cacheDirectories]
  have hfiles : ∀ entry ∈ [("m.py", fileM.path), ("__init__.py", initialM.path)],
      ".." ∉ entry.2 ∧ moduleBesidePackage.tree.HasFileAt entry.2 := by
    intro entry he
    rcases List.mem_pair.mp he with rfl | rfl <;> exact ⟨by decide, _, _, rfl⟩
  refine (isFresh_moduleBesidePackage.sourceFiles_of_filesBelow (by decide) rfl ⟨_, rfl⟩ hbelow
    hfiles).trans ?_
  exact congrArg Except.ok (by decide +kernel)

theorem resolveType_moduleBesidePackage : ∀ unit ∈ [fileM, initialM],
    (moduleBesidePackage.resolveType (.ofLocation unit.path) (.ofLocation []) none).1 =
      .ok (some ⟨"src.m", "X"⟩) := by
  intro unit hu
  obtain ⟨hparent, hmodule, body, ha⟩ : ".." ∉ unit.path ∧
      moduleName? unit.path [] = .ok (some "src.m") ∧
      ∃ body, moduleBesidePackage.tree.at? unit.path =
        some (.file (encodeUtf8 "class X:\n".toList) body) := by
    rcases List.mem_pair.mp hu with rfl | rfl <;> exact ⟨by decide, rfl, _, rfl⟩
  exact isFresh_moduleBesidePackage.resolveType_of_file hparent (by decide) ha rfl hmodule
    (by decide +kernel) (by decide +kernel)

theorem exists_report_moduleBesidePackage :
    ∃ report, (exporterOfP.collect optionsOfM moduleBesidePackage).1 = .ok report ∧
      report.results = [fileM, initialM].map fun unit =>
        ⟨unit, .exported ⟨"src.m", "X"⟩ "X" [("A", .int 2)]⟩ := by
  have hroot : moduleBesidePackage.resolve optionsOfM.importRoot = .ok [] :=
    isFresh_moduleBesidePackage.resolve_ofLocation (by simp)
  have htypes : ∀ f ∈ [fileM, initialM].map fun unit => (unit, (⟨"src.m", "X"⟩ : ResolvedType)),
      (moduleBesidePackage.resolveType (.ofLocation f.1.path) (.ofLocation []) none).1 =
        .ok (some f.2) := by
    intro f hf
    obtain ⟨unit, hunit, rfl⟩ := List.mem_map.mp hf
    exact resolveType_moduleBesidePackage unit hunit
  have hcollect := Exporter.fst_collect_of_types
    ([fileM, initialM].map fun unit => (unit, ⟨"src.m", "X"⟩)) isFresh_moduleBesidePackage
    sourceFiles_moduleBesidePackage hroot htypes
    (show _ = .ok ([fileM, initialM].map fun unit =>
      ⟨unit, .exported ⟨"src.m", "X"⟩ "X" [("A", .int 2)]⟩) by cbv) (by cbv)
  exact ⟨_, hcollect, results_foldl_add _ _⟩

end World

end SymbolExport
