import SymbolExport.Proofs.Attributes
import SymbolExport.Proofs.Eviction

/-!
Steps of one process do not see each other, but for the files and the logger, as long as the cleanup
behind each of them succeeds. Each forgets the modules that it has loaded and gives the search path
back, so the next step finds what a new process would find.
-/
namespace SymbolExport

/-- A step that writes no links, and no module that tells another file for its own. -/
def Step.IsPlain : Step → Prop
  | .write files => ∀ file ∈ files, file.2.isLinkFree ∧ file.2.TellsOwnFiles
  | _ => True

/-- The fault of the cleanup that has ended a step. -/
def Answer.cleanupFault? : Answer → Option CleanupFault
  | .found (.error (.cleanup fault)) _ => some fault
  | .collected (.error (.cleanup fault)) _ => some fault
  | .exported (.error (.failed (.cleanup fault))) _ => some fault
  | .ran ⟨.failed (.export (.failed (.cleanup fault))), _, _⟩ => some fault
  | _ => none

/-- The symbols that a step has looked up. -/
def Answer.symbols? : Answer → Option (List (Option Symbol))
  | .found (.ok lookup) _ => some lookup.symbols
  | _ => none

/-- No module of a tree defines another file for its own. -/
theorem Node.TellsOwnFiles.attributes_body {tree : Tree} (h : Node.TellsOwnFiles tree)
    (origin : ModuleOrigin) : (origin.body tree).attributes.get? fileAttribute = none := by
  rcases origin.body_mem_bodies tree with hempty | hmem
  · rw [hempty]
    rfl
  · exact h _ hmem

/-- A new module that tells its file lies below the root, where its name is searched. -/
theorem ModuleCache.Sound.liesBelow {tree : Tree} {cwd root : Location} {cache : ModuleCache}
    {name : String} {m : LoadedModule} (h : cache.Sound tree root) (hl : tree.isLinkFree)
    (hr : ".." ∉ root) (hm : cache.get? name = some m) (hf : m.TellsFile tree cwd)
    (ha : m.attributes.get? fileAttribute = none ∨
      m.attributes.get? fileAttribute = some .module) : m.LiesBelow tree cwd root := by
  have ho : cache.originOf? name = some m.origin := by
    rw [originOf?, hm, Option.map_some]
  obtain ⟨inner, outer, parent, hn, rfl, hp, hs⟩ := h.found (by simp [Table.has]) ho
  obtain rfl := homeOf_nil hp
  have hdotFree : ∀ component ∈ inner :: outer, component ≠ ".." := by
    rintro component hc rfl
    exact hn.dotFree ".." hc (by decide)
  have hparent : ".." ∉ root ++ outer.reverse := by
    intro hmem
    rcases List.mem_append.mp hmem with hroot | houter
    · exact hr hroot
    · exact hdotFree ".." (List.mem_cons_of_mem inner (List.mem_reverse.mp houter)) rfl
  have hreal {last : String} (hlast : last ≠ "..") :
      tree.resolve cwd (.ofLocation (root ++ outer.reverse ++ [last])) =
        .ok (root ++ outer.reverse ++ [last]) := by
    rw [Tree.resolve_eq hl]
    refine congrArg Except.ok (normalize_of_notMem ?_ [])
    simp only [Path.ofLocation, List.mem_append, List.mem_singleton, not_or] at hparent ⊢
    exact ⟨hparent, Ne.symm hlast⟩
  have hbelow (last : String) : root <+: root ++ outer.reverse ++ [last] :=
    ⟨outer.reverse ++ [last], (List.append_assoc _ _ _).symm⟩
  obtain ⟨file?, htold, -⟩ := hf
  have hplaces : m.places =
      .ok (file?.toList ++ (m.origin.directory?.map Path.ofLocation).toList) := by
    simp [LoadedModule.places, htold, Except.map]
  have hinner := hdotFree inner List.mem_cons_self
  refine ⟨_, hplaces, ?_⟩
  rcases searchModule_cases hs with hpackage | hfile | hdirectory
  · exact ⟨_, by simp [hpackage, ModuleOrigin.directory?], _, hreal hinner, hbelow inner⟩
  · have hnone : m.attributes.get? fileAttribute = none := by
      refine ha.resolve_right fun hmodule => ?_
      simp [LoadedModule.toldFile?, hmodule, Symbol.path?] at htold
    have hown : file? = some (.ofLocation (root ++ outer.reverse ++ [inner ++ moduleSuffix])) := by
      simpa [LoadedModule.toldFile?, hnone, hfile, ModuleOrigin.file?, eq_comm] using htold
    have hlast : inner ++ moduleSuffix ≠ ".." := by
      intro he
      have hlength := congrArg String.length he
      have hsuffix : moduleSuffix.length = 3 := by decide
      have hdots : "..".length = 2 := by decide
      rw [String.length_append] at hlength
      omega
    exact ⟨_, by simp [hown], _, hreal hlast, hbelow _⟩
  · exact ⟨_, by simp [hdirectory, ModuleOrigin.directory?], _, hreal hinner, hbelow inner⟩

namespace World

/-- No module is loaded, and there are no links among the files. -/
structure IsFresh (w : World) : Prop where
  modules : w.modules = []
  linkFree : w.tree.isLinkFree
  cwd : ".." ∉ w.cwd

variable {w start : World}

theorem IsFresh.of_restores (h : start.IsFresh) (hr : start.Restores w) : w.IsFresh :=
  ⟨hr.modules.trans h.modules, hr.linkFree h.linkFree, by rw [hr.cwd]; exact h.cwd⟩

theorem IsFresh.parent_notMem_of_resolve (h : w.IsFresh) {p : Path} {place : Location}
    (hp : w.resolve p = .ok place) : ".." ∉ place := by
  rw [resolve, Tree.resolve_eq h.linkFree] at hp
  cases hp
  split
  · exact parent_notMem_normalize (by simp) _
  · exact parent_notMem_normalize h.cwd _

/-- A block of imports gives back what it found, if its action only reads and its cleanup does not
fail. -/
theorem IsFresh.restores_importingFrom {α : Type} (h : w.IsFresh) (ht : w.tree.TellsOwnFiles)
    {root : Location} (hr : ".." ∉ root) {action : World → Except Failure α × World}
    (ha : ∀ v : World, v.Reads (action v).2)
    (hc : ∀ fault, (w.importingFrom root action).1 ≠ .error (.cleanup fault)) :
    w.Restores (w.importingFrom root action).2 := by
  have hread := ha (w.opened root)
  have hfront : (w.opened root).searchPath.head? = some root := rfl
  have hplaced := hread.obeys hfront (Placed.isObeyed w.modules w.tree root)
    (.refl w.modules w.tree root)
  have hshows := (hread.obeys hfront
    (ModuleCache.isObeyed_showsBodies w.tree root)).2
  rw [opened] at hread hplaced hshows
  unfold importingFrom at hc ⊢
  generalize action { w with searchPath := root :: w.searchPath } = block
    at hread hplaced hshows hc ⊢
  obtain ⟨result, during⟩ := block
  rcases cleanUp_decided (w := w) hread.tree hread.cwd hplaced with
    ⟨htidy, modules, hclean, hcleans⟩ | ⟨-, fault, modules, hclean, -⟩
  · simp only [hclean] at hcleans ⊢
    have hnone : modules = [] := by
      refine List.eq_nil_iff_forall_not_mem.mpr fun entry hmem => ?_
      have hhas : modules.has entry.1 := Table.has_iff_mem_names.mpr (List.mem_map_of_mem hmem)
      have hknown := hcleans.known hhas
      rw [Table.has_eq_isSome, Option.isSome_iff_exists] at hknown
      obtain ⟨m, hm⟩ := hknown
      have hnew : ¬ w.modules.has entry.1 := by simp [h.modules, Table.has]
      refine hcleans.gone hnew hm ?_ hhas
      rw [h.modules] at hplaced hshows
      refine ModuleCache.Sound.liesBelow hplaced h.linkFree hr hm (htidy entry.1 m hnew hm).file ?_
      cases hfile : m.attributes.get? fileAttribute with
      | none => exact Or.inl rfl
      | some symbol =>
        have hown := hshows entry.1 m fileAttribute (ModuleCache.Sound.key_ne_empty hplaced hm) hm
        rw [hfile, ModuleCache.ownAttribute?_of_none rfl, ht.attributes_body m.origin] at hown
        rcases hown with hnone | ⟨hmodule, -, -⟩
        · cases hnone
        · exact Or.inr hmodule
    exact ⟨⟨hread.cwd, hread.home, hread.refusal?, hread.encodeFault?⟩, rfl,
      hnone.trans h.modules.symm, fun hl => hread.tree ▸ hl, fun ht => hread.tree ▸ ht⟩
  · simp only [hclean] at hc
    exact absurd rfl (hc fault)

theorem IsFresh.restores_lookUp (h : w.IsFresh) (ht : w.tree.TellsOwnFiles) (importRoot : Path)
    (types : List ResolvedType)
    (hc : ∀ fault, (w.lookUp importRoot types).1 ≠ .error (.cleanup fault)) :
    w.Restores (w.lookUp importRoot types).2 := by
  unfold lookUp at hc ⊢
  split at hc
  · exact .refl w
  · rename_i root hp
    refine h.restores_importingFrom ht (h.parent_notMem_of_resolve hp) ?_ hc
    intro v
    have hv := reads_loadTypes v types
    generalize v.loadTypes types = loaded at hv ⊢
    obtain ⟨result, after⟩ := loaded
    cases result <;> exact hv

theorem IsFresh.restores_collect (h : w.IsFresh) (ht : w.tree.TellsOwnFiles) (x : Exporter)
    (o : ExportOptions) (hc : ∀ fault, (x.collect o w).1 ≠ .error (.cleanup fault)) :
    w.Restores (x.collect o w).2 := by
  unfold Exporter.collect at hc ⊢
  split at hc
  · exact .refl w
  · rename_i units _
    dsimp only at hc ⊢
    split at hc
    · exact .refl w
    · rename_i root hp
      have hb := h.restores_importingFrom ht (h.parent_notMem_of_resolve hp) fun v =>
        reads_extractAll v x.mode (x.policyFor o) o.importRoot {} units
      generalize w.importingFrom root _ = block at hb hc ⊢
      obtain ⟨result, after⟩ := block
      cases result with
      | error failure => exact hb hc
      | ok report => exact (hb (by simp)).note _ _ _

theorem IsFresh.restores_export (h : w.IsFresh) (ht : w.tree.TellsOwnFiles) (x : Exporter)
    (o : ExportOptions) (hc : ∀ fault, (x.run o w).1 ≠ .error (.failed (.cleanup fault))) :
    w.Restores (x.run o w).2 := by
  have hcollect := h.restores_collect ht x o
  unfold Exporter.run at hc ⊢
  generalize x.collect o w = collected at hcollect hc ⊢
  obtain ⟨result, after⟩ := collected
  cases result with
  | error failure =>
    refine hcollect fun fault he => hc fault ?_
    cases he
    rfl
  | ok report => exact (hcollect (by simp)).trans (restores_writeReport x o report after)

theorem IsFresh.restores_fulfil (h : w.IsFresh) (ht : w.tree.TellsOwnFiles) (logger : Logger)
    (q : Request) (hc : Answer.cleanupFault? (.ran (w.fulfil logger q).1) = none) :
    w.Restores (w.fulfil logger q).2 := by
  have hp (hc : ∀ fault, (w.perform q).1 ≠ .error (.export (.failed (.cleanup fault)))) :
      w.Restores (w.perform q).2 := by
    unfold perform at hc ⊢
    split at hc
    · exact .refl w
    · rename_i options _
      have he := h.restores_export ht q.command.exporter options
      generalize q.command.exporter.run options w = exported at he hc ⊢
      obtain ⟨result, after⟩ := exported
      cases result with
      | error f =>
        refine he fun fault hf => hc fault ?_
        cases hf
        rfl
      | ok report => exact he (by simp)
  unfold fulfil at hc ⊢
  generalize w.perform q = performed at hp hc ⊢
  obtain ⟨result, after⟩ := performed
  cases result with
  | error f =>
    have hperformed : w.Restores after := by
      refine hp fun fault hf => ?_
      cases hf
      cases hc
    dsimp only
    split <;> exact hperformed
  | ok report =>
    have hperformed : w.Restores after := hp (by simp)
    dsimp only
    split
    · exact hperformed.note _ _ _
    · exact hperformed

theorem restores_emptyLog (w : World) : w.Restores { w with log := [] } :=
  ⟨⟨rfl, rfl, rfl, rfl⟩, rfl, rfl, id, id⟩

theorem restores_foldl {α : Type} {items : List α} {f : World → α → World}
    (hf : ∀ v : World, ∀ item ∈ items, v.Restores (f v item)) (w : World) :
    w.Restores (items.foldl f w) := by
  induction items generalizing w with
  | nil => exact .refl w
  | cons item rest ih =>
    have hrest : ∀ v : World, ∀ i ∈ rest, v.Restores (f v i) :=
      fun v i hi => hf v i (List.mem_cons_of_mem item hi)
    exact (hf w item List.mem_cons_self).trans (ih hrest _)

end World

/-- No handler stays, however many there are. -/
theorem foldl_erase_self (handlers : List LogHandler) :
    handlers.foldl List.erase handlers = [] := by
  induction handlers with
  | nil => rfl
  | cons h rest ih => simpa using ih

/-- A logger is set up in one way, whatever it was before. -/
theorem Logger.configure_eq (l l' : Logger) (isVerbose : Bool) :
    l.configure isVerbose = l'.configure isVerbose := by
  simp only [configure, removeHandlers, foldl_erase_self]

/-- A record of any level shows in what a verbose logger writes. -/
theorem Logger.text_ne_empty {log : Log} (h : log ≠ []) (l : Logger) :
    (l.configure true).text log ≠ "" := by
  obtain ⟨r, rest, rfl⟩ := List.exists_cons_of_ne_nil h
  have hline : ∃ line more,
      (l.configure true).lines r = ("[entity-export] " ++ line) :: more := by
    rw [l.configure_eq {} true]
    cases hr : r.level <;>
      simp [lines, configure, removeHandlers, LogHandler.line?, LogLevel.number, hr,
        String.append_assoc]
  obtain ⟨line, more, hline⟩ := hline
  intro he
  have hl := congrArg String.toList he
  simp [text, hline, String.toList_join] at hl

/-- A logger without handlers writes nothing. -/
theorem Logger.text_of_no_handlers {l : Logger} (h : l.handlers = []) (log : Log) :
    l.text log = "" := by
  have hlines : log.flatMap l.lines = [] := by simp [List.flatMap_eq_nil_iff, lines, h]
  rw [text, hlines]
  rfl

theorem World.log_importingFrom {α : Type} (w : World) (root : Location)
    (action : World → Except Failure α × World) :
    (w.importingFrom root action).2.log = (action (w.opened root)).2.log := by
  unfold importingFrom opened
  dsimp only
  split <;> rfl

/-- A module that is not found is told in the log. -/
theorem World.log_lookUp_ne_nil {w : World} {importRoot : Path} {root : Location}
    {t : ResolvedType} {name : String} (hr : w.resolve importRoot = .ok root)
    (hi : (w.modules.importNamed w.tree root t.moduleName).1 = .error (.noModule name)) :
    (w.lookUp importRoot [t]).2.log ≠ [] := by
  have hload : ((w.opened root).loadType t).1 = .ok none ∧
      ((w.opened root).loadType t).2.log ≠ [] := by
    unfold loadType importModule opened
    dsimp only
    rw [hi]
    simp [debug, note]
  unfold lookUp
  rw [hr]
  dsimp only
  rw [log_importingFrom]
  unfold loadTypes
  generalize (w.opened root).loadType t = loaded at hload ⊢
  obtain ⟨result, after⟩ := loaded
  obtain ⟨rfl, hlog⟩ := hload
  exact hlog

namespace Runtime

open World

variable {p start : Runtime}

theorem run_of_request {installation : Installation} {arguments : List String}
    {commands : List Command} {q : Request} (hc : installation.commands = .ok commands)
    (hq : readRequest commands arguments = .ok q) :
    p.run installation arguments =
      ((World.fulfil { p.world with log := [] } (p.logger.configure q.isVerbose) q).1,
        ⟨(World.fulfil { p.world with log := [] } (p.logger.configure q.isVerbose) q).2,
          p.logger.configure q.isVerbose⟩) := by
  simp only [run, hc, hq]

theorem restores_run (h : p.world.IsFresh) (ht : p.world.tree.TellsOwnFiles)
    (installation : Installation) (arguments : List String)
    (hc : Answer.cleanupFault? (.ran (p.run installation arguments).1) = none) :
    p.world.Restores (p.run installation arguments).2.world := by
  have hw := restores_emptyLog p.world
  unfold run at hc ⊢
  dsimp only at hc ⊢
  split at hc
  · exact hw
  · split at hc
    · exact hw
    · exact hw.trans ((h.of_restores hw).restores_fulfil ht _ _ hc)

theorem restores_runIn (h : p.world.IsFresh) (ht : p.world.tree.TellsOwnFiles)
    (installation : Installation) (cwd : Path) (arguments : List String)
    (hc : Answer.cleanupFault? (.ran (p.runIn installation cwd arguments).1) = none) :
    p.world.Restores (p.runIn installation cwd arguments).2.world := by
  have hplace : ".." ∉ p.world.tree.realPlace p.world.cwd cwd := by
    rw [Tree.realPlace, Tree.resolve_eq h.linkFree]
    dsimp only
    split
    · exact parent_notMem_normalize (by simp) _
    · exact parent_notMem_normalize h.cwd _
  let here : Runtime :=
    { p with world := { p.world with cwd := p.world.tree.realPlace p.world.cwd cwd } }
  have hhere : here.world.IsFresh := ⟨h.modules, h.linkFree, hplace⟩
  have hr := restores_run hhere ht installation arguments hc
  exact ⟨⟨rfl, hr.home, hr.refusal?, hr.encodeFault?⟩, hr.searchPath, hr.modules, hr.linkFree,
    hr.tellsOwnFiles⟩

/-- A step gives back what it found, unless its cleanup fails. -/
theorem restores_step (h : p.world.IsFresh) (ht : p.world.tree.TellsOwnFiles) {s : Step}
    (hs : s.IsPlain) (hc : (p.step s).1.cleanupFault? = none) :
    p.world.Restores (p.step s).2.world := by
  have hw := restores_emptyLog p.world
  have hf := h.of_restores hw
  cases s with
  | write files =>
    refine hw.trans (restores_foldl ?_ _)
    rintro v ⟨path, node⟩ hm
    obtain ⟨hlinks, htells⟩ := hs _ hm
    exact restores_place v path hlinks htells
  | remove paths => exact hw.trans (restores_foldl (fun v path _ => restores_discard v path) _)
  | lookUp importRoot types =>
    refine hw.trans (hf.restores_lookUp ht importRoot types fun fault he => ?_)
    simp [step, he, Answer.cleanupFault?] at hc
  | collect x o =>
    refine hw.trans (hf.restores_collect ht x o fun fault he => ?_)
    simp [step, he, Answer.cleanupFault?] at hc
  | «export» x o =>
    refine hw.trans (hf.restores_export ht x o fun fault he => ?_)
    simp [step, he, Answer.cleanupFault?] at hc
  | run installation cwd arguments =>
    let bare : Runtime := { p with world := { p.world with log := [] } }
    have hbare : bare.world.IsFresh := hf
    exact hw.trans (restores_runIn hbare ht installation cwd arguments hc)

/-- What a run tells and leaves among the files does not depend on the logger that it finds. -/
theorem step_run_eq (w : World) (l l' : Logger) (installation : Installation) (cwd : Path)
    (arguments : List String) :
    (step ⟨w, l⟩ (.run installation cwd arguments)).1 =
        (step ⟨w, l'⟩ (.run installation cwd arguments)).1 ∧
      (step ⟨w, l⟩ (.run installation cwd arguments)).2.world =
        (step ⟨w, l'⟩ (.run installation cwd arguments)).2.world := by
  have hrun (w : World) : (run ⟨w, l⟩ installation arguments).1 =
        (run ⟨w, l'⟩ installation arguments).1 ∧
      (run ⟨w, l⟩ installation arguments).2.world =
        (run ⟨w, l'⟩ installation arguments).2.world := by
    unfold run
    dsimp only
    split
    · exact ⟨rfl, rfl⟩
    · split
      · exact ⟨rfl, rfl⟩
      · rw [l.configure_eq l']
        exact ⟨rfl, rfl⟩
  obtain ⟨hresult, hworld⟩ := hrun { w with log := [], cwd := w.tree.realPlace w.cwd cwd }
  simp only [step, runIn, hresult, hworld, and_self]

/-- A step sees of its past only the files and the logger. -/
theorem step_of_restores (hr : start.world.Restores p.world) (s : Step) :
    p.step s =
      step ⟨{ start.world with tree := p.world.tree }, p.logger⟩ s := by
  have he : { p.world with log := [] } =
      { start.world with tree := p.world.tree, log := [] } := by
    obtain ⟨⟨hc, hh, hf⟩, hp, hm, -, -⟩ := hr
    obtain ⟨w, l⟩ := p
    cases w
    simp_all
  unfold step
  rw [he]

/-- Takes each step in a new process, which starts like the given one but on the files that the step
before has left, and with its logger set up as it was left. -/
def separately (start : Runtime) : List Step → List (Answer × Runtime)
  | [] => []
  | s :: rest =>
    let result := start.step s
    result :: separately
      ⟨{ start.world with tree := result.2.world.tree }, result.2.logger⟩ rest

theorem session_of_restores (hr : start.world.Restores p.world) (hf : p.world.IsFresh)
    (ht : p.world.tree.TellsOwnFiles) {steps : List Step} (hs : ∀ s ∈ steps, s.IsPlain)
    (hc : ∀ result ∈ p.session steps, result.1.cleanupFault? = none) :
    p.session steps =
        separately ⟨{ start.world with tree := p.world.tree }, p.logger⟩ steps ∧
      ∀ result ∈ p.session steps, start.world.Restores result.2.world := by
  induction steps generalizing p with
  | nil => exact ⟨rfl, by simp [session]⟩
  | cons s rest ih =>
    rw [session] at hc
    obtain ⟨hfirst, hothers⟩ := List.forall_mem_cons.mp hc
    have hstep := restores_step hf ht (hs s List.mem_cons_self) hfirst
    obtain ⟨hrest, hall⟩ := ih (hr.trans hstep) (hf.of_restores hstep) (hstep.tellsOwnFiles ht)
      (fun t hm => hs t (List.mem_cons_of_mem s hm)) hothers
    constructor
    · rw [session, separately, hrest, step_of_restores hr s]
    · intro result hm
      rcases List.mem_cons.mp hm with rfl | hm
      · exact hr.trans hstep
      · exact hall result hm

/-- A module that defines one value. -/
def moduleOf (name : String) (value : Int) : Node :=
  .file [] { attributes := [(name, .value (.int value))] }

/-- A module is looked up, changed, and looked up again. -/
def changedModule : List Step :=
  let root : Path := .ofLocation []
  let path : Path := .ofLocation ["app", "enums", "m.py"]
  [.write [(path, moduleOf "X" 1)], .lookUp root [⟨"app.enums.m", "X"⟩],
   .write [(path, moduleOf "X" 2)], .lookUp root [⟨"app.enums.m", "X"⟩]]

theorem tellsOwnFiles_moduleOf {name : String} (h : name ≠ fileAttribute) (value : Int) :
    (moduleOf name value).TellsOwnFiles := by
  intro body hb
  rw [moduleOf, Node.bodies, List.mem_singleton] at hb
  subst hb
  simp [Table.get?, h]

/-- A package with a module that takes the name by which the package tells its file. -/
def hiddenFile : World where
  tree := .directory [("a", .directory
    [(initialFile, moduleOf "P" 1), ("__file__.py", moduleOf "Q" 2)])]
  cwd := []
  home := []

/-- Both modules are looked up; then the package is changed, and looked up again. -/
def changedPackage : List Step :=
  let root : Path := .ofLocation []
  [.lookUp root [⟨"a", "P"⟩, ⟨"a.__file__", "Q"⟩],
   .write [(.ofLocation ["a", initialFile], moduleOf "P" 3)], .lookUp root [⟨"a", "P"⟩]]

/-- A process in which the program has run verbosely before. -/
def verboseRuntime : Runtime :=
  { newRuntime with logger := newRuntime.logger.configure true }

/-- A look-up of a module that does not exist. -/
def lookUpMissing : Step :=
  .lookUp (.ofLocation []) [⟨"m", "X"⟩]

theorem isFresh_hiddenFile : hiddenFile.IsFresh :=
  ⟨rfl, by simp [hiddenFile, moduleOf, Node.isLinkFree, Node.areLinkFree], by simp [hiddenFile]⟩

theorem tellsOwnFiles_hiddenFile : hiddenFile.tree.TellsOwnFiles := by
  have hp := tellsOwnFiles_moduleOf (show "P" ≠ fileAttribute by decide) 1
  have hq := tellsOwnFiles_moduleOf (show "Q" ≠ fileAttribute by decide) 2
  intro body hb
  simp only [hiddenFile, Node.bodies, Node.bodiesIn, List.append_nil, List.mem_append] at hb
  exact hb.elim (hp body) (hq body)

theorem isPlain_changedPackage : ∀ s ∈ changedPackage, s.IsPlain := by
  have hp := tellsOwnFiles_moduleOf (show "P" ≠ fileAttribute by decide) 3
  simpa [changedPackage, Step.IsPlain, moduleOf, Node.isLinkFree] using hp

end Runtime

end SymbolExport
