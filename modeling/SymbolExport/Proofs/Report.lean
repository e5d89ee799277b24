import SymbolExport.Proofs.Extraction
import SymbolExport.Proofs.Resolution

/-!
What collecting reports. Whatever the files hold, each of them has one result, a success or a skip,
and the entries are the successes, of which the last one of each name counts.
-/
namespace SymbolExport

namespace Table

variable {α : Type}

theorem ofEntries_concat (entries : List (String × α)) (entry : String × α) :
    ofEntries (entries ++ [entry]) = (ofEntries entries).insert entry.1 entry.2 := by
  simp [ofEntries]

/-- Names come in the order of their first entries. -/
theorem names_ofEntries (entries : List (String × α)) :
    (ofEntries entries).names = (names entries).eraseDups := by
  induction entries using List.reverseRecOn with
  | nil => rfl
  | append_singleton front entry ih =>
    have hnames : names (front ++ [entry]) = names front ++ [entry.1] := by simp [names]
    rw [ofEntries_concat, names_insert, hnames, List.eraseDups_append, ih]
    by_cases hm : entry.1 ∈ names front
    · simp [List.removeAll, hm]
    · simp [List.removeAll, hm, List.eraseDups_cons]

/-- The last entry of a name counts. -/
theorem get?_ofEntries (entries : List (String × α)) (name : String) :
    (ofEntries entries).get? name = Table.get? entries.reverse name := by
  induction entries using List.reverseRecOn with
  | nil => rfl
  | append_singleton front entry ih =>
    rw [ofEntries_concat, List.reverse_concat]
    by_cases hn : entry.1 = name
    · subst hn
      rw [get?_insert_self]
      simp [get?]
    · rw [get?_insert_of_ne (Ne.symm hn), ih]
      simp [get?, hn]

end Table

/-- What an outcome adds to the entries. -/
def Outcome.entry? : Outcome → Option (String × MemberTable)
  | exported _ outputName members => some (outputName, members)
  | _ => none

/-- An export of a type under its name and the suffix, of members that are not ignored. -/
structure Outcome.IsSuccess (policy : Policy) (outcome : Outcome) : Prop where
  named : ∃ t, outcome.type? = some t ∧ outcome.outputName? = some (t.name ++ policy.suffix)
  members_ne_nil : outcome.members ≠ []
  notMem_ignore : ∀ name ∈ Table.names outcome.members, name ∉ policy.ignore
  reason : outcome.skipReason? = none

/-- A file that is left out: no type was found, or it cannot be loaded, or nothing of it is left. -/
structure Outcome.IsSkip (outcome : Outcome) : Prop where
  outputName : outcome.outputName? = none
  members : outcome.members = []
  reason : outcome.skipReason? = some "unresolved" ∧ outcome.type? = none ∨
    (outcome.skipReason? = some "unloadable" ∨ outcome.skipReason? = some "empty") ∧
      outcome.type?.isSome

/-- The members that the last success of an output name gives. -/
def ExportReport.lastMembers? (r : ExportReport) (outputName : String) : Option MemberTable :=
  (r.results.reverse.find? fun e => e.outcome.outputName? = some outputName).map fun e =>
    e.outcome.members

/-- The report on some files, one result for each of them. -/
structure ExportReport.IsComplete (r : ExportReport) (policy : Policy) (units : List SourceUnit) :
    Prop where
  units : r.results.map Extraction.unit = units
  outcome : ∀ e ∈ r.results, e.outcome.IsSuccess policy ∨ e.outcome.IsSkip
  names : r.entries.names = (r.results.filterMap fun e => e.outcome.outputName?).eraseDups
  members : ∀ outputName, r.entries.get? outputName = r.lastMembers? outputName

/-- The report that some results make. -/
def ExportReport.ofResults (results : List Extraction) : ExportReport where
  results := results
  entries := Table.ofEntries (results.filterMap fun e => e.outcome.entry?)

/-- Some module on disk raises what no import catches. -/
def Tree.Aborts (tree : Tree) (r : Raised) : Prop :=
  r.isAbort ∧ ∃ body ∈ Node.bodies tree, body.raised? = some r

theorem ExportReport.foldl_add (results : List Extraction) (r : ExportReport) :
    results.foldl add r =
      { r with
        results := r.results ++ results
        entries := (results.filterMap fun e => e.outcome.entry?).foldl
          (fun t entry => t.insert entry.1 entry.2) r.entries } := by
  induction results generalizing r with
  | nil => simp
  | cons e rest ih =>
    rw [List.foldl_cons, ih]
    cases he : e.outcome <;> simp [add, he, Outcome.entry?]

theorem ExportReport.foldl_add_empty (results : List Extraction) :
    results.foldl add {} = ofResults results := by
  rw [foldl_add]
  simp [ofResults, Table.ofEntries]

theorem Outcome.fst_entry? (outcome : Outcome) :
    outcome.entry?.map Prod.fst = outcome.outputName? := by
  cases outcome <;> rfl

theorem ExportReport.names_ofResults (results : List Extraction) :
    (ofResults results).entries.names =
      (results.filterMap fun e => e.outcome.outputName?).eraseDups := by
  rw [ofResults, Table.names_ofEntries, Table.names, List.map_filterMap]
  simp only [Outcome.fst_entry?]

theorem ExportReport.get?_ofResults (results : List Extraction) (outputName : String) :
    (ofResults results).entries.get? outputName =
      (ofResults results).lastMembers? outputName := by
  simp only [ofResults, lastMembers?, Table.get?_ofEntries, ← List.filterMap_reverse]
  generalize results.reverse = backwards
  induction backwards with
  | nil => rfl
  | cons e rest ih =>
    rw [List.filterMap_cons, List.find?_cons]
    cases he : e.outcome with
    | exported t name members =>
      by_cases hn : name = outputName
      · simp [he, hn, Outcome.entry?, Outcome.outputName?, Outcome.members, Table.get?]
      · simpa [he, hn, Outcome.entry?, Outcome.outputName?, Table.get?] using ih
    | _ => simpa [he, Outcome.entry?, Outcome.outputName?] using ih

theorem ExportReport.isComplete_ofResults {results : List Extraction} {policy : Policy}
    (h : ∀ e ∈ results, e.outcome.IsSuccess policy ∨ e.outcome.IsSkip) :
    (ofResults results).IsComplete policy (results.map Extraction.unit) where
  units := rfl
  outcome := h
  names := names_ofResults results
  members := get?_ofResults results

theorem ExportMode.isSuccess_or_isSkip_outcome (mode : ExportMode) (policy : Policy)
    (t : ResolvedType) (symbol? : Option Symbol) :
    (mode.outcome policy t symbol?).IsSuccess policy ∨
      (mode.outcome policy t symbol?).IsSkip := by
  unfold ExportMode.outcome
  split
  · exact Or.inr ⟨rfl, rfl, Or.inr ⟨Or.inl rfl, rfl⟩⟩
  · rename_i c _
    dsimp only
    split
    · exact Or.inr ⟨rfl, rfl, Or.inr ⟨Or.inr rfl, rfl⟩⟩
    · rename_i hempty
      refine Or.inl ⟨⟨t, rfl, rfl⟩, by simpa [Outcome.members] using hempty, ?_, rfl⟩
      intro name hm
      obtain ⟨entry, he, rfl⟩ := List.mem_map.mp hm
      obtain ⟨m, hkept, rfl⟩ := List.mem_map.mp (Table.mem_ofEntries he)
      simpa using (List.mem_filter.mp hkept).2

/-- A unit of a walk is a file at a place that is resolved to itself. -/
theorem exists_file_of_mem_sourceUnits {tree : Tree} {root : Location} {extension : String}
    {unit : SourceUnit} (h : unit ∈ sourceUnits tree root extension) :
    ".." ∉ unit.path ∧ ∃ content body, tree.at? unit.path = some (.file content body) := by
  unfold sourceUnits at h
  split at h
  · rename_i node _
    obtain ⟨⟨name, place⟩, -, hu⟩ := List.mem_filterMap.mp h
    dsimp only at hu
    split at hu
    · rename_i hfile
      cases hu
      simp only [Bool.and_eq_true, Tree.isFile] at hfile
      obtain ⟨-, hfile⟩ := hfile
      split at hfile
      · rename_i content body hs
        obtain ⟨n, hn, real, ha, hl⟩ := Tree.stat_eq_ok hs
        have hreal : tree.realPlace [] (.ofLocation place) = real := by
          simp [Tree.realPlace, hl.resolve_eq hn]
        have hstart :
            ".." ∉ (if (Path.ofLocation place).isAbsolute then [] else ([] : Location)) := by
          simp
        rw [hreal]
        exact ⟨hl.parent_notMem hstart, content, body, ha⟩
      · cases hfile
    · cases hu
  · cases h

namespace ModuleCache

variable {tree : Tree} {root directory : Location} {cache : ModuleCache} {name : String}
  {outer reversed names : List String} {fault : ImportFault} {r : Raised} {importOne : Importer}

theorem importEach_raised (hone : ∀ {cache name}, (importOne cache name).1 = .error (.raised r) →
      ∃ body ∈ Node.bodies tree, body.raised? = some r)
    (h : (importOne.importEach cache names).1 = .error (.raised r)) :
    ∃ body ∈ Node.bodies tree, body.raised? = some r := by
  induction names generalizing cache with
  | nil => cases h
  | cons name rest ih =>
    unfold Importer.importEach at h
    split at h
    · rename_i fault after hfirst
      cases h
      exact hone (by rw [hfirst])
    · exact ih h

theorem loadFrom_raised (hone : ∀ {cache name}, (importOne cache name).1 = .error (.raised r) →
      ∃ body ∈ Node.bodies tree, body.raised? = some r)
    (h : (cache.loadFrom tree importOne directory name outer).1 = .error (.raised r)) :
    ∃ body ∈ Node.bodies tree, body.raised? = some r := by
  unfold loadFrom at h
  dsimp only at h
  split at h
  · cases h
  · rename_i origin _
    split at h
    · rename_i fault after hevaluated
      cases h
      unfold ModuleBody.evaluate at hevaluated
      split at hevaluated
      · rename_i fault' after' himports
        obtain ⟨hfault, -⟩ := Prod.mk.inj hevaluated
        cases hfault
        exact importEach_raised hone (by rw [himports])
      · split at hevaluated
        · rename_i raised hraised
          obtain ⟨hfault, -⟩ := Prod.mk.inj hevaluated
          cases hfault
          rcases origin.body_mem_bodies tree with hempty | hbody
          · simp [hempty] at hraised
          · exact ⟨_, hbody, hraised⟩
        · cases hevaluated
    · cases h

theorem loadModule_raised (hone : ∀ {cache name}, (importOne cache name).1 = .error (.raised r) →
      ∃ body ∈ Node.bodies tree, body.raised? = some r)
    (h : (cache.loadModule tree root importOne reversed).1 = .error (.raised r)) :
    ∃ body ∈ Node.bodies tree, body.raised? = some r := by
  induction reversed generalizing cache with
  | nil => cases h
  | cons name outer ih =>
    have hloading := loading cache tree root importOne name outer
    generalize cache.loadModule tree root importOne (name :: outer) = loaded at hloading h
    cases hloading with
    | present | meanwhile | notPackage => cases h
    | outermost | searched => exact loadFrom_raised hone h
    | package _ _ hp =>
      cases h
      exact ih (by rw [hp])
    | lost _ _ _ _ hd =>
      cases h
      obtain ⟨parent, hparent | hparent⟩ := fault_of_directoryOf hd <;> cases hparent

/-- What an import raises is raised by one of the modules on disk. -/
theorem importWithin_raised {depth : Nat}
    (h : (importWithin tree root depth cache name).1 = .error (.raised r)) :
    ∃ body ∈ Node.bodies tree, body.raised? = some r := by
  induction depth generalizing cache name with
  | zero => cases h
  | succ depth ih =>
    rcases importWithin_cases tree root depth name with ⟨-, hbad⟩ | ⟨-, hload⟩
    · rw [hbad] at h
      cases h
    · rw [hload] at h
      exact loadModule_raised ih h

end ModuleCache

/-- What leads from a place to another one below it are the names between them. -/
theorem exists_names_of_relativeTo? {file root : Location} {relative : Path}
    (h : (Path.ofLocation file).relativeTo? (.ofLocation root) = some relative) :
    ∃ names, file = root ++ names ∧ relative = ⟨.relative, names⟩ := by
  unfold Path.relativeTo? at h
  split at h
  · rename_i hprefix
    cases h
    obtain ⟨names, hnames⟩ := List.isPrefixOf_iff_prefix.mp hprefix.2
    obtain rfl : root ++ names = file := hnames
    exact ⟨names, rfl, by simp [Path.ofLocation]⟩
  · cases h

namespace World

open SymbolExport.Text

variable {w v : World} {r : Raised}

theorem resolve_of_isDirectory {p : Path} (h : w.tree.isDirectory w.cwd p) :
    ∃ place, w.resolve p = .ok place ∧ ∃ entries, w.tree.at? place = some (.directory entries) := by
  obtain ⟨entries, hs⟩ := Tree.isDirectory_iff_stat.mp h
  obtain ⟨place, hp, ha⟩ := Tree.resolve_of_stat hs
  exact ⟨place, by simp [resolve, hp, Except.mapError], entries, ha⟩

/-- A look-up fails only if a module on disk raises what no import catches. -/
theorem aborts_of_lookedUp {cache : ModuleCache} {root : Location} {name moduleName : String}
    (h : lookedUp name (cache.importNamed w.tree root moduleName).1 = .error r) :
    w.tree.Aborts r := by
  unfold lookedUp at h
  split at h
  · rename_i raised himport
    split at h
    · rename_i habort
      cases h
      exact ⟨habort, ModuleCache.importWithin_raised himport⟩
    · cases h
  · cases h
  · cases h

/-- A file other than the import root has a module name, or none, but no fault. -/
theorem exists_moduleName? {file root : Location} (h : file ≠ root) :
    ∃ name?, moduleName? file root = .ok name? := by
  unfold moduleName?
  split
  · exact ⟨none, rfl⟩
  · rename_i relative hrelative
    obtain ⟨names, rfl, rfl⟩ := exists_names_of_relativeTo? hrelative
    split
    · rename_i hnone
      have hempty : names = [] := by
        simpa [Path.withoutSuffix?, Path.withName?] using hnone
      simp [hempty] at h
    · exact ⟨_, rfl⟩

/-- What a file gives: a success, a skip, or what a module has raised that no import catches. -/
inductive Gives (w : World) (policy : Policy) (unit : SourceUnit) :
    Except Failure Extraction → Prop
  | result {outcome : Outcome} (h : outcome.IsSuccess policy ∨ outcome.IsSkip) :
      Gives w policy unit (.ok ⟨unit, outcome⟩)
  | aborted {r : Raised} (h : w.tree.Aborts r) : Gives w policy unit (.error (.aborted r))

/-- Whatever a file holds, it gives a success or a skip, unless it ends the run. -/
theorem gives_extraction (mode : ExportMode) (policy : Policy) {importRoot : Path}
    {root : Location} {unit : SourceUnit} (hr : w.resolve importRoot = .ok root)
    (hf : w.resolve (.ofLocation unit.path) = .ok unit.path) (hne : unit.path ≠ root)
    (cache : ModuleCache) :
    w.Gives policy unit (w.extraction mode policy importRoot root cache unit).1 := by
  obtain ⟨name?, hname⟩ := exists_moduleName? hne
  have hresolved : ∃ t?, (w.resolveType (.ofLocation unit.path) importRoot mode.baseNames?).1 =
      .ok t? := by
    unfold resolveType
    split
    · exact ⟨none, rfl⟩
    · simp only [hf, hr, hname, bind, Except.bind, Except.mapError]
      exact ⟨_, rfl⟩
  obtain ⟨t?, ht⟩ := hresolved
  cases t? with
  | none =>
    simp only [extraction, ht]
    exact .result (Or.inr ⟨rfl, rfl, Or.inl ⟨rfl, rfl⟩⟩)
  | some t =>
    simp only [extraction, ht, typeExtraction]
    split
    · rename_i raised hlooked
      exact .aborted (aborts_of_lookedUp hlooked)
    · exact .result (mode.isSuccess_or_isSkip_outcome policy t _)

/-- Each file adds one result, unless one of them ends the run. -/
theorem extractions_decided (mode : ExportMode) (policy : Policy) {importRoot : Path}
    {root : Location} {units : List SourceUnit} (hr : w.resolve importRoot = .ok root)
    (hf : ∀ unit ∈ units, w.resolve (.ofLocation unit.path) = .ok unit.path ∧ unit.path ≠ root)
    (cache : ModuleCache) :
    (∃ results, (w.extractions mode policy importRoot root cache units).1 = .ok results ∧
        results.map Extraction.unit = units ∧
        ∀ e ∈ results, e.outcome.IsSuccess policy ∨ e.outcome.IsSkip) ∨
      ∃ r, (w.extractions mode policy importRoot root cache units).1 = .error (.aborted r) ∧
        w.tree.Aborts r := by
  induction units generalizing cache with
  | nil => exact Or.inl ⟨[], rfl, rfl, by simp⟩
  | cons unit rest ih =>
    obtain ⟨⟨hplace, hne⟩, hrest⟩ := List.forall_mem_cons.mp hf
    have hgives := gives_extraction mode policy hr hplace hne cache
    unfold extractions
    generalize w.extraction mode policy importRoot root cache unit = extracted at hgives ⊢
    obtain ⟨result, after⟩ := extracted
    cases hgives with
    | aborted hr => exact Or.inr ⟨_, rfl, hr⟩
    | result ho =>
      dsimp only
      rcases ih hrest after with ⟨results, hresults, hunits, hall⟩ | ⟨r, hresult, habort⟩
      · generalize w.extractions mode policy importRoot root after rest = others at hresults ⊢
        obtain ⟨others, last⟩ := others
        dsimp only at hresults
        subst hresults
        exact Or.inl ⟨_, rfl, by simp [hunits], List.forall_mem_cons.mpr ⟨ho, hall⟩⟩
      · generalize w.extractions mode policy importRoot root after rest = others at hresult ⊢
        obtain ⟨others, last⟩ := others
        dsimp only at hresult
        subst hresult
        exact Or.inr ⟨r, rfl, habort⟩

end World

/-- A report is made from its results. -/
theorem Exporter.eq_ofResults_of_collect {x : Exporter} {o : ExportOptions} {w : World}
    {r : ExportReport} (h : (x.collect o w).1 = .ok r) : r = .ofResults r.results := by
  obtain ⟨units, root, -, -, hall⟩ := exists_extractAll_of_collect h
  obtain ⟨hpure, -⟩ := (w.isInBlock_opened root).extractAll x.mode (x.policyFor o) o.importRoot {}
    units
  rw [hall] at hpure
  cases hes : (w.extractions x.mode (x.policyFor o) o.importRoot root (w.opened root).modules
      units).1 with
  | error failure => simp [hes, Except.map] at hpure
  | ok es =>
    rw [hes] at hpure
    rw [Except.ok.inj hpure, ExportReport.foldl_add_empty]
    rfl

namespace World

open SymbolExport.Text

/-- A project with a linked module, one that is no text, one that raises, and an empty class. -/
def mixedProject : World :=
  let c (attributes : Table Value) : Symbol :=
    .type ⟨⟨ClassLevel.firstSerial, "X", attributes⟩, [ClassLevel.object], none⟩
  let file (body : ModuleBody) : Node :=
    .file (encodeUtf8 "class X:\n".toList) body
  { tree := .directory [("src", .directory
      [("bytes.py", .file [0xff] {}),
       ("broken.py", file { raised? := some { kind := "ValueError", argument := .text "broken" } }),
       ("empty.py", file { attributes := [("X", c [])] }),
       ("linked.py", .link "../m.py")]),
      ("m.py", file { imports := ["src.empty"], attributes := [("X", c [("A", .int 1)])] })]
    cwd := []
    home := [] }

def mixedOptions : ExportOptions where
  sourceRoot := .ofLocation ["src"]
  outputPath := .ofLocation ["out.js"]
  importRoot := .ofLocation []

/-- What derives from no exception that an import catches. -/
def baseRaised : Raised where
  kind := "BaseException"
  argument := .text "stop"
  isAbort := true

def raisingModule : World where
  tree := .directory
    [("m.py", .file (encodeUtf8 "class X:\n".toList) { raised? := some baseRaised })]
  cwd := []
  home := []

def raisingOptions : ExportOptions where
  sourceRoot := .ofLocation []
  outputPath := .ofLocation ["out.js"]
  importRoot := .ofLocation []

def moduleM : SourceUnit := ⟨["m.py"], sourceExtension⟩

theorem isFresh_raisingModule : raisingModule.IsFresh :=
  ⟨rfl, by simp [raisingModule, Node.isLinkFree, Node.areLinkFree], by simp [raisingModule]⟩

theorem sourceFiles_raisingModule :
    raisingModule.sourceFiles raisingOptions.sourceRoot exporterOfP.extension exporterOfP.label =
      .ok [moduleM] := by
  have hbelow : (raisingModule.tree.at? []).map (Node.filesBelow []) =
      some [("m.py", ["m.py"])] := by
    simp [raisingModule, Node.at?, Node.filesBelow, Node.filesInside, Node.isDirectory, sortByName]
  have hfiles : ∀ entry ∈ [("m.py", ["m.py"])],
      ".." ∉ entry.2 ∧ raisingModule.tree.HasFileAt entry.2 := by
    intro entry he
    obtain rfl := List.mem_singleton.mp he
    exact ⟨by decide, _, _, rfl⟩
  refine (isFresh_raisingModule.sourceFiles_of_filesBelow (by simp) rfl ⟨_, rfl⟩ hbelow
    hfiles).trans ?_
  exact congrArg Except.ok (by decide +kernel)

theorem resolveType_raisingModule :
    (raisingModule.resolveType (.ofLocation moduleM.path) (.ofLocation []) none).1 =
      .ok (some ⟨"m", "X"⟩) :=
  isFresh_raisingModule.resolveType_of_file (by decide) (by decide) rfl rfl rfl
    (by decide +kernel) (by decide +kernel)

end World

end SymbolExport
