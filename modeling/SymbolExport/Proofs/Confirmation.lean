import SymbolExport.Proofs.ExportFrame
import SymbolExport.Proofs.LineReading
import SymbolExport.Proofs.PathText
import SymbolExport.Proofs.Session

/-!
What a run tells of itself is what it has done. The paths that it shows lead from the working
directory to the files that it has written, and where it writes nothing it says why.
-/
namespace SymbolExport

open SymbolExport.Text

/-- A process has its place in a tree without links: its working directory is there, and names on
the way to it and to the home directory are plain. -/
structure World.IsPlaced (w : World) : Prop where
  linkFree : w.tree.isLinkFree
  directory : w.tree.HasDirectoryAt w.cwd
  parentFree : ".." ∉ w.cwd
  plainCwd : ∀ name ∈ w.cwd, IsPlainName name
  plainHome : ∀ name ∈ w.home, IsPlainName name

/-- What is shown for a path leads to its place from the working directory, where a file holds
exactly the text. -/
structure World.Shows (w : World) (path : Path) (shown : String) (text : List Char) : Prop where
  place : (Path.ofString shown).place w.cwd = path.place w.cwd
  content : w.tree.read w.cwd (.ofString shown) = .ok (encodeUtf8 text)

variable {w w' after : World} {path p : Path} {text : List Char} {cwd q : Location}

/-- A path that is shown from the working directory goes on from there. -/
theorem Path.parts_of_relativeTo? (h : path.relativeTo? (.ofLocation cwd) = some p) :
    path = ⟨.root, cwd ++ p.parts⟩ ∧ p = ⟨.relative, p.parts⟩ := by
  obtain ⟨anchor, parts⟩ := path
  unfold relativeTo? at h
  split at h
  · rename_i hbase
    obtain ⟨rfl, hprefix⟩ := hbase
    cases h
    obtain ⟨rest, rfl⟩ := List.isPrefixOf_iff_prefix.mp hprefix
    simp [ofLocation]
  · cases h

theorem Path.place_of_relativeTo? (hcwd : ".." ∉ cwd)
    (h : path.relativeTo? (.ofLocation cwd) = some p) : p.place cwd = path.place cwd := by
  obtain ⟨hpath, hp⟩ := parts_of_relativeTo? h
  have hstart : path.place cwd = normalize [] (cwd ++ p.parts) := by rw [hpath]; rfl
  have hfront : normalize [] cwd = cwd := normalize_of_notMem hcwd []
  rw [hstart, normalize_append, hfront, hp]
  rfl

namespace World

theorem HasText.of_relativeTo? (h : w.HasText path text) (hw : w.IsPlaced)
    (hp : path.relativeTo? (.ofLocation w.cwd) = some p) : w.HasText p text where
  way := by
    obtain ⟨hpath, hrelative⟩ := Path.parts_of_relativeTo? hp
    rintro q ⟨front, hfront, rfl⟩
    have hstart : Path.start p.parent w.cwd = w.cwd := by rw [hrelative]; rfl
    rw [hstart]
    by_cases hne : p.parts = []
    · -- nothing goes on from the working directory, which is the whole way then
      have hnil : front = [] := by simpa [Path.parent, hne] using hfront
      rw [hnil]
      exact hw.directory
    · apply h.way
      refine ⟨w.cwd ++ front, ?_, ?_⟩
      · rw [hpath, Path.parent, List.dropLast_append_of_ne_nil hne]
        exact (List.prefix_append_right_inj w.cwd).mpr hfront
      · have hcwd : normalize [] w.cwd = w.cwd := normalize_of_notMem hw.parentFree []
        rw [hpath]
        exact (congrArg (normalize · front) hcwd.symm).trans (normalize_append [] w.cwd front).symm
  file := by
    rw [Path.place_of_relativeTo? hw.parentFree hp]
    exact h.file
  allowed := by
    rw [Path.place_of_relativeTo? hw.parentFree hp]
    exact h.allowed
  encodable := h.encodable

/-- A file that holds a text is shown by its path. -/
theorem HasText.shows (h : w.HasText path text) (hw : w.IsPlaced) (hp : path.IsPlain) :
    w.Shows path (w.shownPath path) text := by
  unfold shownPath
  cases hr : path.relativeTo? (.ofLocation w.cwd) with
  | none =>
    rw [Option.getD_none]
    constructor
    · rw [hp.ofString_text]
    · rw [hp.ofString_text]
      exact h.read_eq hw.linkFree
  | some p =>
    have hrelative := (hp.relativeTo? hr).ofString_text
    rw [Option.getD_some]
    constructor
    · rw [hrelative]
      exact Path.place_of_relativeTo? hw.parentFree hr
    · rw [hrelative]
      exact (h.of_relativeTo? hw hr).read_eq hw.linkFree

theorem IsPlaced.run (h : w.IsPlaced) (x : Exporter) (o : ExportOptions) :
    (x.run o w).2.IsPlaced := by
  obtain ⟨hkeeps, hlinkFree⟩ := Exporter.keeps_run x o w
  have hl := hlinkFree h.linkFree
  have hgrows := Exporter.grows_run h.linkFree h.directory x o
  exact ⟨hl, hkeeps.cwd ▸ hgrows.hasDirectoryAt h.linkFree hl h.directory,
    hkeeps.cwd ▸ h.parentFree, hkeeps.cwd ▸ h.plainCwd, hkeeps.home ▸ h.plainHome⟩

end World

/-- What the options of a request come from: the root of the project and its settings. -/
structure Request.Prepares (q : Request) (w : World) (root : Location) (settings : Settings)
    (options : ExportOptions) : Prop where
  root_eq : w.projectRoot q.before = .ok root
  settings_eq : w.settingsFor q.before root = .ok settings
  options_eq : options = q.command.exportOptions q.behind (settings.forCommand q.command.name)
    settings.appDirectory (.ofLocation root)

/-- Whether a request is to write declarations: the switch counts, or else the settings. -/
def Request.wantsDeclarations (q : Request) (s : Settings) : Bool :=
  match q.behind.switches.get? Command.declarationsName with
  | some given => given
  | none => (s.forCommand q.command.name).emitDeclarations? = some true

section Request

variable {q : Request} {root : Location} {settings : Settings} {options : ExportOptions}
  {reading : LineReading}

theorem Request.Prepares.emitDeclarations (h : q.Prepares w root settings options) :
    options.emitDeclarations = q.wantsDeclarations settings := by
  rw [h.options_eq, Command.exportOptions, wantsDeclarations]
  dsimp only
  cases q.behind.switches.get? Command.declarationsName with
  | some given => rfl
  | none =>
    cases (settings.forCommand q.command.name).emitDeclarations? with
    | none => rfl
    | some wanted => cases wanted <;> rfl

theorem World.exists_prepares (h : w.prepare q = .ok options) :
    ∃ root settings, q.Prepares w root settings options := by
  unfold prepare at h
  obtain ⟨root, hroot, h⟩ := exists_of_bind_eq_ok h
  split at h
  · cases h
  · obtain ⟨settings, hsettings, h⟩ := exists_of_bind_eq_ok h
    cases h
    exact ⟨root, settings, hroot, hsettings, rfl⟩

theorem World.IsPlaced.isPlain_projectRoot (h : w.IsPlaced)
    (hroot : w.projectRoot reading = .ok root) : ∀ name ∈ root, IsPlainName name := by
  unfold projectRoot at hroot
  split at hroot
  · cases hroot
  · rename_i named _
    obtain ⟨p, hp, hroot⟩ := exists_of_bind_eq_ok hroot
    have hplain : p.IsPlain := by
      have hexpand := eq_ok_of_mapError hp
      unfold expandHome at hexpand
      split at hexpand
      · rename_i p' hp'
        cases hexpand
        exact (Path.isPlain_ofString _).expandHome? h.plainHome hp'
      · cases hexpand
    have hresolve := eq_ok_of_mapError hroot
    rw [resolve, Tree.resolve_eq h.linkFree] at hresolve
    cases hresolve
    refine isPlainName_of_mem_normalize ?_ hplain
    split
    · simp
    · exact h.plainCwd

/-- The module stands in the project, or where the output says. -/
theorem Request.Prepares.isPlain_outputPath (h : q.Prepares w root settings options)
    (hw : w.IsPlaced) : options.outputPath.IsPlain := by
  rw [h.options_eq]
  exact (Path.isPlain_ofLocation (hw.isPlain_projectRoot h.root_eq)).join (Path.isPlain_ofString _)

end Request

/-- The warning of a command that has found nothing; a verbose log says where it comes from. -/
def Request.emptyWarning (q : Request) : String :=
  "[entity-export] WARNING " ++ (if q.isVerbose then "entity_export.cli: " else "") ++
    q.command.emptyMessage ++ "\n"

/-- The line of a warning stands at the end of what is written of the log, verbose or not. -/
theorem Logger.exists_text_note (l : Logger) (q : Request) (w : World) :
    ∃ front, (l.configure q.isVerbose).text
      (w.note .warning .cli q.command.emptyMessage).log = front ++ q.emptyWarning := by
  refine ⟨(l.configure q.isVerbose).text w.log, ?_⟩
  have hlines : (l.configure q.isVerbose).lines ⟨.warning, .cli, q.command.emptyMessage⟩ =
      [q.emptyWarning] := by
    unfold Request.emptyWarning
    cases q.isVerbose <;>
      simp [configure, removeHandlers, foldl_erase_self, lines, LogHandler.line?, LogLevel.number,
        LogLevel.name, LogSource.name, String.append_assoc]
  simp [World.note, text, hlines, String.join_append]

/-- What a request comes to: the options of its export, and the report of what it collects. -/
structure Request.Collects (q : Request) (w : World) (settings : Settings)
    (options : ExportOptions) (report : ExportReport) : Prop where
  prepared : ∃ root, q.Prepares w root settings options
  collected : (q.command.exporter.collect options w).1 = .ok report

/-- What a run that ends in order tells, and what it has done. Without entries it warns and changes
nothing; otherwise it shows the module that it has written, and behind it the declarations exactly
if they are wanted. -/
inductive Request.Tells (q : Request) (w : World) (result : RunResult) (after : World) : Prop
  | nothing {settings : Settings} {options : ExportOptions} {report : ExportReport}
      {front : String} (collects : q.Collects w settings options report)
      (empty : report.isEmpty) (tree : after.tree = w.tree) (output : result.output = "")
      (errors : result.errors = front ++ q.emptyWarning)
  | module {settings : Settings} {options : ExportOptions} {report : ExportReport}
      {text : List Char} {shown : String} (collects : q.Collects w settings options report)
      (unwanted : q.wantsDeclarations settings = false)
      (rendered : renderModule report.entries = .ok text)
      (shows : after.Shows options.outputPath shown text)
      (output : result.output = q.command.noun ++ " exported to " ++ shown ++ "\n")
  | both {settings : Settings} {options : ExportOptions} {report : ExportReport}
      {text : List Char} {path : Path} {shown shown' : String}
      (collects : q.Collects w settings options report)
      (wanted : q.wantsDeclarations settings)
      (rendered : renderModule report.entries = .ok text)
      (shows : after.Shows options.outputPath shown text)
      (named : declarationPath? options.outputPath = some path)
      (shows' : after.Shows path shown'
        (renderDeclarations q.command.isReadonly report.entries))
      (output : result.output = q.command.noun ++ " exported to " ++ shown ++ "\n" ++
        ("TypeScript definitions exported to " ++ shown' ++ "\n"))

/-- The report of an export has the entries that are collected; without any, nothing is written. -/
theorem Exporter.exists_collect_of_run {x : Exporter} {o : ExportOptions} {r : ExportReport}
    (hr : (x.run o w).1 = .ok r) :
    ∃ report, (x.collect o w).1 = .ok report ∧ r.entries = report.entries ∧
      (report.isEmpty → r.written = []) := by
  rcases run_cases x o w with ⟨failure, -, hrun⟩ | ⟨report, hc, hrun⟩
  · rw [hrun] at hr
    cases hr
  · have hwrite : x.writeReport o report (x.collect o w).2 = (.ok r, (x.run o w).2) := by
      rw [← hrun, ← hr]
    obtain ⟨texts, htexts, -, rfl⟩ := writeReport_eq_ok_iff.mp hwrite
    refine ⟨report, hc, rfl, ?_⟩
    intro he
    have hnone : List.isEmpty report.entries := he
    rw [texts?, if_pos hnone] at htexts
    cases htexts
    simp [written_of_collect hc]

namespace World

variable {q : Request} {report : ExportReport} {result : RunResult}

theorem exists_run_of_perform (h : w.perform q = (.ok report, after)) :
    ∃ root settings options, q.Prepares w root settings options ∧
      q.command.exporter.run options w = (.ok report, after) := by
  unfold perform at h
  split at h
  · cases h
  · rename_i options hoptions
    obtain ⟨root, settings, hprepares⟩ := exists_prepares hoptions
    split at h
    · cases h
    · rename_i report' last hrun
      cases h
      exact ⟨root, settings, options, hprepares, hrun⟩

/-- A request that is performed is told of. -/
theorem tells_fulfil_of_perform (hw : w.IsPlaced) (l : Logger)
    (h : w.perform q = (.ok report, after)) :
    q.Tells w (w.fulfil (l.configure q.isVerbose) q).1
      (w.fulfil (l.configure q.isVerbose) q).2 := by
  obtain ⟨root, settings, options, hprepares, hrun⟩ := exists_run_of_perform h
  have hr : (q.command.exporter.run options w).1 = .ok report := by rw [hrun]
  obtain ⟨collected, hc, hentries, hnothing⟩ := Exporter.exists_collect_of_run hr
  have hcollects : q.Collects w settings options collected := ⟨⟨root, hprepares⟩, hc⟩
  have hsame : report.isEmpty = collected.isEmpty := by
    rw [ExportReport.isEmpty, hentries, ExportReport.isEmpty]
  unfold fulfil
  rw [h]
  dsimp only
  by_cases he : collected.isEmpty
  · obtain ⟨front, hfront⟩ := l.exists_text_note q after
    have htree := (Exporter.WritesNothing.empty hc he).tree_run
    rw [hrun] at htree
    rw [if_pos (hsame.trans he), hnothing he]
    exact .nothing hcollects he htree rfl hfront
  · have hplaced : after.IsPlaced := by
      have hplaced := hw.run q.command.exporter options
      rwa [hrun] at hplaced
    have hplain := hprepares.isPlain_outputPath hw
    have hne : report.entries ≠ [] := by
      rw [hentries]
      simpa [ExportReport.isEmpty] using he
    obtain ⟨text, htext, hmodule, hrest⟩ :=
      Exporter.written_of_run hw.linkFree hw.directory hr hne
    rw [hrun] at hmodule hrest
    rw [hentries] at htext
    rw [if_neg (by rwa [hsame])]
    by_cases hemit : options.emitDeclarations
    · rw [if_pos hemit] at hrest
      obtain ⟨path, hpath, hwritten, hdeclarations⟩ := hrest
      rw [hentries] at hdeclarations
      refine .both hcollects (hprepares.emitDeclarations ▸ hemit) htext
        (hmodule.shows hplaced hplain) hpath
        (hdeclarations.shows hplaced (hplain.declarationPath? hpath)) ?_
      simp [hwritten, confirmation]
    · rw [if_neg hemit] at hrest
      refine .module hcollects ?_ htext (hmodule.shows hplaced hplain) ?_
      · rw [← hprepares.emitDeclarations]
        simpa using hemit
      · simp [hrest, confirmation]

/-- A run that fails with a word shows it behind its log, and shows no file. -/
theorem fulfil_of_exited_one {logger : Logger}
    (h : (w.fulfil logger q).1.ending = .exited 1) :
    (w.fulfil logger q).1.output = "" ∧ ∃ f front, (w.perform q).1 = .error f ∧
      (w.fulfil logger q).1.errors = front ++ f.message ++ "\n" := by
  unfold fulfil at h ⊢
  cases hp : w.perform q with
  | mk result last =>
    cases result with
    | error f =>
      rw [hp] at h
      dsimp only at h ⊢
      split at h
      · rename_i hexpected
        rw [if_pos hexpected]
        exact ⟨rfl, f, logger.text last.log, rfl, rfl⟩
      · cases h
    | ok report =>
      rw [hp] at h
      cases h

/-- Only a request that is performed ends in order. -/
theorem exists_perform_of_exited_zero {logger : Logger}
    (h : (w.fulfil logger q).1.ending = .exited 0) :
    ∃ report after, w.perform q = (.ok report, after) := by
  unfold fulfil at h
  cases hp : w.perform q with
  | mk result last =>
    cases result with
    | error f =>
      rw [hp] at h
      dsimp only at h
      split at h <;> cases h
    | ok report => exact ⟨report, last, rfl⟩

end World

namespace Runtime

variable {p : Runtime} {installation : Installation} {arguments : List String}
  {commands : List Command} {q : Request}

/-- Arguments that cannot be read are not refused with the status of a request that fails. -/
theorem exists_request_of_exited_one (h : (p.run installation arguments).1.ending = .exited 1) :
    ∃ commands q, installation.commands = .ok commands ∧
      readRequest commands arguments = .ok q := by
  unfold run at h
  dsimp only at h
  cases hc : installation.commands with
  | error f =>
    rw [hc] at h
    cases h
  | ok commands =>
    cases hq : readRequest commands arguments with
    | error e =>
      simp only [hc, hq] at h
      cases hr : e.reason <;> simp [EarlyEnd.result, hr] at h
    | ok q => exact ⟨commands, q, rfl, hq⟩

/-- A run on a request that ends in order tells exactly what it has done; one that fails with a
word shows no file, and the word is the last that it says. -/
theorem run_tells (h : p.world.IsPlaced) (installation : Installation) (arguments : List String) :
    (∀ commands q, installation.commands = .ok commands → readRequest commands arguments = .ok q →
        (p.run installation arguments).1.ending = .exited 0 →
        q.Tells { p.world with log := [] } (p.run installation arguments).1
          (p.run installation arguments).2.world) ∧
      ((p.run installation arguments).1.ending = .exited 1 →
        (p.run installation arguments).1.output = "" ∧
          ∃ commands q f front, installation.commands = .ok commands ∧
            readRequest commands arguments = .ok q ∧
            (World.perform { p.world with log := [] } q).1 = .error f ∧
            (p.run installation arguments).1.errors = front ++ f.message ++ "\n") := by
  have hplaced : World.IsPlaced { p.world with log := [] } :=
    ⟨h.linkFree, h.directory, h.parentFree, h.plainCwd, h.plainHome⟩
  constructor
  · intro commands q hc hq hending
    rw [run_of_request hc hq] at hending ⊢
    obtain ⟨report, after, hperform⟩ := World.exists_perform_of_exited_zero hending
    exact World.tells_fulfil_of_perform hplaced p.logger hperform
  · intro hending
    obtain ⟨commands, q, hc, hq⟩ := exists_request_of_exited_one hending
    rw [run_of_request hc hq] at hending ⊢
    obtain ⟨houtput, f, front, hperform, herrors⟩ := World.fulfil_of_exited_one hending
    exact ⟨houtput, commands, q, f, front, hc, hq, hperform, herrors⟩

/-- A model without other modules, two bare directories deep. -/
def shop : World where
  tree := .directory [("app", .directory [("models", .directory
    [("size.py", .file (encodeUtf8 (World.sourceText "Size"))
      { attributes := [("Size", .type (World.classNamed "Size"))] })])])]
  cwd := []
  home := []

def unitOfSize : SourceUnit := ⟨["app", "models", "size.py"], sourceExtension⟩

def typeOfSize : ResolvedType := ⟨"app.models.size", "Size"⟩

/-- The constants of the shop with their declarations, where they are written by default. -/
def optionsOfShop : ExportOptions where
  sourceRoot := .ofLocation ["app", "models"]
  outputPath := .ofLocation ["resources", "js", "constants.js"]
  importRoot := .ofLocation []
  suffix := "Model"
  emitDeclarations := true

def constantsRequest : Request where
  command := .constants
  before := { command? := some ("constants", ["--typescript"]) }
  behind := { switches := [(Command.declarationsName, true)] }

theorem isFresh_shop : shop.IsFresh :=
  ⟨rfl, rfl, by simp [shop]⟩

theorem tellsOwnFiles_shop : shop.tree.TellsOwnFiles := by
  simp [shop, Node.tellsOwnFiles_directory_iff, Node.tellsOwnFiles_file_iff, Table.get?,
    fileAttribute]

theorem fst_collect_shop : (Command.constants.exporter.collect optionsOfShop shop).1 =
    .ok (.ofResults [⟨unitOfSize, .exported typeOfSize "SizeModel" [("V", .int 1)]⟩]) := by
  have hbelow : (shop.tree.at? ["app", "models"]).map (Node.filesBelow ["app", "models"]) =
      some [("size.py", unitOfSize.path)] := by
    simp [shop, Node.at?, Node.entry?, Table.get?, Node.filesBelow, Node.filesInside,
      Node.isDirectory, sortByName, isEntered, cacheDirectories, unitOfSize]
  have hunits : shop.sourceFiles optionsOfShop.sourceRoot sourceExtension "Models" =
      .ok ([(unitOfSize, typeOfSize)].map Prod.fst) :=
    isFresh_shop.sourceFiles_of_filesBelow (by decide) rfl ⟨_, rfl⟩ hbelow
      (by simpa using ⟨by decide, _, _, rfl⟩)
  have htype : (shop.resolveType (.ofLocation unitOfSize.path) (.ofLocation []) none).1 =
      .ok (some typeOfSize) :=
    isFresh_shop.resolveType_of_file (by decide) (by decide) rfl rfl rfl (by decide +kernel)
      (by decide +kernel)
  have hcollect := Exporter.fst_collect_of_types (x := Command.constants.exporter)
    (o := optionsOfShop) [(unitOfSize, typeOfSize)] isFresh_shop hunits
    (isFresh_shop.resolve_ofLocation (by simp)) (List.forall_mem_singleton.mpr htype) rfl (by cbv)
  have hresult : (World.typeExtractions shop.tree Command.constants.exporter.mode
      (Command.constants.exporter.policyFor optionsOfShop) [] [] [(unitOfSize, typeOfSize)]).1 =
        .ok [⟨unitOfSize, .exported typeOfSize "SizeModel" [("V", .int 1)]⟩] := by cbv
  rw [hcollect, hresult, ← ExportReport.foldl_add_empty]
  rfl

/-- The directories on the way are made, and the declarations are written beside the module. -/
theorem fst_writeTexts_shop (module declarations : List Char) (log : Log) :
    (World.writeTexts { shop with log := log } [(optionsOfShop.outputPath, module),
      (.ofLocation ["resources", "js", "constants.d.ts"], declarations)]).1 = .ok () := by cbv

theorem exists_run_shop :
    ∃ r after, Command.constants.exporter.run optionsOfShop shop = (.ok r, after) := by
  obtain ⟨log, hrun⟩ := Exporter.exists_run_eq_writeReport isFresh_shop tellsOwnFiles_shop
    fst_collect_shop
  have hrendered : (renderModule [("SizeModel", [("V", .int 1)])]).toOption.isSome := by
    decide +kernel
  cases hr : renderModule [("SizeModel", [("V", .int 1)])] with
  | error e => simp [hr, Except.toOption] at hrendered
  | ok module =>
    have htexts : Command.constants.exporter.texts? optionsOfShop
        [("SizeModel", [("V", .int 1)])] = some [(optionsOfShop.outputPath, module),
          (.ofLocation ["resources", "js", "constants.d.ts"],
            renderDeclarations false [("SizeModel", [("V", .int 1)])])] := by
      simp only [Exporter.texts?, hr]
      rfl
    have hwritten := fst_writeTexts_shop module
      (renderDeclarations false [("SizeModel", [("V", .int 1)])]) log
    generalize hw : World.writeTexts { shop with log := log } _ = written at hwritten
    obtain ⟨result, after⟩ := written
    dsimp only at hwritten
    subst hwritten
    exact ⟨_, after, hrun.trans (Exporter.writeReport_eq_ok_iff.mpr ⟨_, htexts, hw, rfl⟩)⟩

theorem prepare_constantsRequest : shop.prepare constantsRequest = .ok optionsOfShop := by
  have hroot : shop.projectRoot constantsRequest.before = .ok [] := by cbv
  have hsettings : shop.settingsFor constantsRequest.before [] = .ok { root := [] } := by cbv
  simp only [World.prepare, hroot, hsettings, bind, Except.bind]
  rfl

theorem readRequest_constants :
    readRequest [.enums [3, 11], .constants] ["constants", "--typescript"] =
      .ok constantsRequest := by
  have hbefore : (mainLine [.enums [3, 11], .constants]).readPart
      ["constants", "--typescript"] = .ok constantsRequest.before := rfl
  have hbehind : (Command.constants.line [verboseOption]).readPart ["--typescript"] =
      .ok constantsRequest.behind := by cbv
  have hchosen : List.find? (fun c => c.name = "constants") [.enums [3, 11], .constants] =
      some Command.constants := rfl
  have hcommand : constantsRequest.before.command? = some ("constants", ["--typescript"]) := rfl
  simp only [readRequest, hbefore, hcommand, hchosen, hbehind, Except.mapError, bind, Except.bind]
  rfl

theorem run_tells_constants :
    shop.IsPlaced ∧ Installation.commands {} = .ok [.enums [3, 11], .constants] ∧
      readRequest [.enums [3, 11], .constants] ["constants", "--typescript"] =
        .ok constantsRequest ∧
      (run ⟨shop, {}⟩ {} ["constants", "--typescript"]).1.ending = .exited 0 ∧
      constantsRequest.Tells shop (run ⟨shop, {}⟩ {} ["constants", "--typescript"]).1
        (run ⟨shop, {}⟩ {} ["constants", "--typescript"]).2.world := by
  have hplaced : shop.IsPlaced := by
    refine ⟨rfl, ⟨_, rfl⟩, ?_, ?_, ?_⟩ <;> simp [shop]
  have hc : Installation.commands {} = .ok [.enums [3, 11], .constants] := by cbv
  have hq := readRequest_constants
  have hending : (run ⟨shop, {}⟩ {} ["constants", "--typescript"]).1.ending = .exited 0 := by
    obtain ⟨r, after, hrun⟩ := exists_run_shop
    have hcommand : constantsRequest.command = .constants := rfl
    have hperform : shop.perform constantsRequest = (.ok r, after) := by
      simp only [World.perform, prepare_constantsRequest, hcommand, hrun]
    rw [run_of_request hc hq]
    have hworld : { shop with log := [] } = shop := rfl
    simp only [hworld, World.fulfil, hperform]
  exact ⟨hplaced, hc, hq, hending,
    (run_tells (p := ⟨shop, {}⟩) hplaced {} _).1 _ _ hc hq hending⟩

end Runtime

end SymbolExport
