import SymbolExport.Proofs.Attributes
import SymbolExport.Proofs.LoadedBefore
import SymbolExport.Proofs.OwnModule

/-!
How far the result of one file depends on the other files of a run. It is what the file gives alone,
unless a submodule has taken the name of its class, or something is loaded that its module needs and
that cannot be imported alone.
-/
namespace SymbolExport

namespace ModuleCache

variable {tree : Tree} {root : Location} {cache : ModuleCache} {key name : String}
  {m : LoadedModule}

/-- The packages of loaded modules are loaded, if those can be imported. -/
def KeepsPackages (tree : Tree) (root : Location) (cache : ModuleCache) : Prop :=
  tree.KeepsPackages root cache.loadedNames

theorem keepsPackages_nil : KeepsPackages tree root [] := by
  intro name outer hm
  rw [loadedNames_nil] at hm
  cases hm

theorem KeepsPackages.importNamed (h : KeepsPackages tree root cache) (hc : Sound tree root cache)
    (name : String) : KeepsPackages tree root (cache.importNamed tree root name).2 :=
  ((hc.imports name).keepsPackages h).1

/-- Whether a module can be imported is told by importing it alone. -/
theorem importNamed_nil_iff (tree : Tree) (root : Location) (name : String) :
    (∃ m, (ModuleCache.importNamed [] tree root name).1 = .ok m) ↔
      tree.IsImportable root (componentsOf name) := by
  have himports := (sound_nil tree root).imports name
  rw [loadedNames_nil] at himports
  constructor
  · rintro ⟨m, hm⟩
    rw [hm] at himports
    exact Tree.isImportable_of_closed
      (fun reversed hr => himports.closed_of_ok rfl hr (Set.notMem_empty reversed))
      (himports.mem_of_ok rfl List.mem_cons_self)
  · intro hi
    have hok := (himports.keepsPackages (by simp [Tree.KeepsPackages])).2 (by simpa using hi)
    cases hr : (ModuleCache.importNamed [] tree root name).1 with
    | error fault => simp [hr, endingOf, Except.map, Except.mapError] at hok
    | ok m => exact ⟨m, rfl⟩

/-- An import ends as it does alone, unless something is loaded that it needs and that cannot be
imported alone. -/
theorem ending_importNamed (hc : Sound tree root cache) (hk : KeepsPackages tree root cache)
    (hno : ∀ key, tree.Needs root (componentsOf name) (componentsOf key) → cache.has key →
      ∃ m, (ModuleCache.importNamed [] tree root key).1 = .ok m) :
    endingOf (cache.importNamed tree root name).1 =
      endingOf (ModuleCache.importNamed [] tree root name).1 := by
  have halone := (sound_nil tree root).imports name
  rw [loadedNames_nil] at halone
  have hneeds : ∀ goal ∈ [componentsOf name], tree.Needs root (componentsOf name) goal := by
    intro goal hg
    rw [List.mem_singleton.mp hg]
    exact .refl
  refine ((hc.imports name).isAlike halone hneeds hk (by simp [Tree.KeepsPackages]) ?_).1
  intro reversed hn hi
  refine iff_of_false (fun hm => hi ?_) (Set.notMem_empty reversed)
  obtain ⟨hname, hhas⟩ := hm
  have hcomponents := hname.componentsOf_dottedName
  have hkey := (importNamed_nil_iff tree root (dottedName reversed)).mp
    (hno _ (by rwa [hcomponents]) hhas)
  rwa [hcomponents] at hkey

end ModuleCache

namespace World

/-- The modules that are loaded when some files have been extracted in a fresh block of imports. -/
def loadedBy (w : World) (root : Location) (mode : ExportMode) (policy : Policy) (importRoot : Path)
    (units : List SourceUnit) : ModuleCache :=
  ((w.opened root).extractAll mode policy importRoot {} units).2.modules

/-- How the result of a file in a run compares with what it gives when it is the only one in a fresh
block of imports. Two things can make a difference: a submodule that is loaded under the full name of
the class, so that one of the two finds no class there; and a module that is loaded before the file,
though it cannot be imported alone, and that the module of the file needs, which hence cannot be
imported alone either. -/
inductive Compares (w : World) (root : Location) (before after : ModuleCache)
    (alone : Except Failure Extraction × ModuleCache) (e : Extraction) : Prop
  | same (h : alone.1 = .ok e)
  | hidden {t : ResolvedType} {other : Outcome} (ht : e.outcome.type? = some t)
      (halone : alone.1 = .ok ⟨e.unit, other⟩)
      (hloaded : after.has t.qualifiedName ∨ alone.2.has t.qualifiedName)
      (h : e.outcome = .unloadable t ∨ other = .unloadable t)
  | kept {t : ResolvedType} {key : String} (ht : e.outcome.type? = some t)
      (hneeds : w.tree.Needs root (componentsOf t.moduleName) (componentsOf key))
      (hbefore : before.has key)
      (hno : ∀ m, (ModuleCache.importNamed [] w.tree root key).1 ≠ .ok m)
      (halone : alone.1 = .ok ⟨e.unit, .unloadable t⟩ ∨
        ∃ r : Raised, r.isAbort ∧ alone.1 = .error (.aborted r))

variable {w : World} {root : Location} {mode : ExportMode} {policy : Policy} {importRoot : Path}
  {cache : ModuleCache} {unit : SourceUnit} {e : Extraction} {t : ResolvedType}

theorem type?_outcome (mode : ExportMode) (policy : Policy) (t : ResolvedType)
    (symbol? : Option Symbol) : (mode.outcome policy t symbol?).type? = some t := by
  unfold ExportMode.outcome
  split
  · rfl
  · dsimp only
    split <;> rfl

theorem outcome_none (mode : ExportMode) (policy : Policy) (t : ResolvedType) :
    mode.outcome policy t none = .unloadable t :=
  rfl

theorem outcome_module (mode : ExportMode) (policy : Policy) (t : ResolvedType) :
    mode.outcome policy t (some .module) = .unloadable t := by
  cases mode <;> rfl

theorem lookedUp_error (name : String) (fault : ImportFault) :
    lookedUp name (.error fault) =
      match fault.raised? with
      | some r => if r.isAbort then .error r else .ok none
      | none => .ok none := by
  cases fault <;> rfl

theorem fst_typeExtraction (tree : Tree) (mode : ExportMode) (policy : Policy) (root : Location)
    (cache : ModuleCache) (unit : SourceUnit) (t : ResolvedType) :
    (typeExtraction tree mode policy root cache unit t).1 =
      match lookedUp t.name (cache.importNamed tree root t.moduleName).1 with
      | .error r => .error (.aborted r)
      | .ok symbol? => .ok ⟨unit, mode.outcome policy t symbol?⟩ := by
  unfold typeExtraction
  dsimp only
  cases lookedUp t.name (cache.importNamed tree root t.moduleName).1 <;> rfl

theorem snd_typeExtraction (tree : Tree) (mode : ExportMode) (policy : Policy) (root : Location)
    (cache : ModuleCache) (unit : SourceUnit) (t : ResolvedType) :
    (typeExtraction tree mode policy root cache unit t).2 =
      (cache.importNamed tree root t.moduleName).2 := by
  unfold typeExtraction
  dsimp only
  split <;> rfl

/-- A file whose module cannot be imported gives no class then, unless that aborts. -/
theorem typeExtraction_of_error {fault : ImportFault}
    (h : (cache.importNamed w.tree root t.moduleName).1 = .error fault) :
    (typeExtraction w.tree mode policy root cache unit t).1 = .ok ⟨unit, .unloadable t⟩ ∨
      ∃ r : Raised, r.isAbort ∧
        (typeExtraction w.tree mode policy root cache unit t).1 = .error (.aborted r) := by
  rw [fst_typeExtraction, h, lookedUp_error]
  cases fault.raised? with
  | none => exact Or.inl rfl
  | some r =>
    by_cases ha : r.isAbort
    · exact Or.inr ⟨r, ha, by simp [ha]⟩
    · exact Or.inl (by simp [ha, outcome_none])

/-- A file whose module is imported as it is alone gives what it gives alone, but where a submodule
has the name of the class. -/
theorem compares_typeExtraction (hc : cache.Sound w.tree root)
    (hb : ModuleCache.KeepsBodies w.tree [] cache ∧ ModuleCache.ShowsBodies w.tree [] cache)
    (hends : endingOf (cache.importNamed w.tree root t.moduleName).1 =
      endingOf (ModuleCache.importNamed [] w.tree root t.moduleName).1)
    (he : (typeExtraction w.tree mode policy root cache unit t).1 = .ok e) :
    w.Compares root cache (typeExtraction w.tree mode policy root cache unit t).2
      (typeExtraction w.tree mode policy root [] unit t) e := by
  have hsame (h : lookedUp t.name (cache.importNamed w.tree root t.moduleName).1 =
      lookedUp t.name (ModuleCache.importNamed [] w.tree root t.moduleName).1) :
      (typeExtraction w.tree mode policy root [] unit t).1 = .ok e := by
    rw [fst_typeExtraction, ← h, ← fst_typeExtraction, he]
  cases hrun : (cache.importNamed w.tree root t.moduleName).1 with
  | error fault =>
    cases halone : (ModuleCache.importNamed [] w.tree root t.moduleName).1 with
    | ok m => simp [hrun, halone, endingOf, Except.map, Except.mapError] at hends
    | error fault' =>
      refine .same (hsame ?_)
      have hraised : fault.raised? = fault'.raised? := by
        simpa [hrun, halone, endingOf, Except.map, Except.mapError] using hends
      rw [hrun, halone, lookedUp_error, lookedUp_error, hraised]
  | ok m =>
    cases halone : (ModuleCache.importNamed [] w.tree root t.moduleName).1 with
    | error fault => simp [hrun, halone, endingOf, Except.map, Except.mapError] at hends
    | ok m' =>
      have hnil := ModuleCache.sound_nil w.tree root
      have horigin : m.origin = m'.origin :=
        Option.some.inj ((hc.namedOrigin?_of_import hrun).symm.trans
          (hnil.namedOrigin?_of_import halone))
      obtain rfl : e = ⟨unit, mode.outcome policy t (m.symbol? t.name)⟩ := by
        rw [fst_typeExtraction, hrun] at he
        exact (Except.ok.inj he).symm
      have hother : (typeExtraction w.tree mode policy root [] unit t).1 =
          .ok ⟨unit, mode.outcome policy t (m'.symbol? t.name)⟩ := by
        rw [fst_typeExtraction, halone]
        rfl
      have hmodule {n : LoadedModule} (hn : n.attributes.get? t.name = some .module) :
          mode.outcome policy t (n.symbol? t.name) = .unloadable t := by
        rw [LoadedModule.symbol?, hn]
        exact outcome_module mode policy t
      have htype := type?_outcome mode policy t (m.symbol? t.name)
      rcases ModuleCache.attribute_of_import hb hrun t.name with hown | ⟨hsub, hloaded⟩
      · rcases ModuleCache.attribute_of_import ⟨.refl w.tree [], .refl w.tree []⟩ halone t.name with
          hown' | ⟨hsub, hloaded⟩
        · refine .same (hsame ?_)
          rw [hrun, halone]
          simp only [lookedUp, LoadedModule.symbol?, hown, hown', horigin]
        · exact .hidden htype hother (Or.inr (by rwa [snd_typeExtraction])) (Or.inr (hmodule hsub))
      · exact .hidden htype hother (Or.inl (by rwa [snd_typeExtraction])) (Or.inl (hmodule hsub))

/-- What a file gives in a run compares with what it gives alone. -/
theorem compares_extraction (hc : cache.Sound w.tree root)
    (hk : ModuleCache.KeepsPackages w.tree root cache)
    (hb : ModuleCache.KeepsBodies w.tree [] cache ∧ ModuleCache.ShowsBodies w.tree [] cache)
    (he : (w.extraction mode policy importRoot root cache unit).1 = .ok e) :
    w.Compares root cache (w.extraction mode policy importRoot root cache unit).2
      (w.extraction mode policy importRoot root [] unit) e := by
  unfold extraction at he ⊢
  split at he
  · cases he
  · exact .same he
  · rename_i t _
    by_cases hno : ∀ key, w.tree.Needs root (componentsOf t.moduleName) (componentsOf key) →
        cache.has key → ∃ m, (ModuleCache.importNamed [] w.tree root key).1 = .ok m
    · exact compares_typeExtraction hc hb (ModuleCache.ending_importNamed hc hk hno) he
    · push Not at hno
      obtain ⟨key, hneeds, hbefore, hkey⟩ := hno
      have hfault : ∀ m, (ModuleCache.importNamed [] w.tree root t.moduleName).1 ≠ .ok m := by
        intro m hm
        have hi := (ModuleCache.importNamed_nil_iff w.tree root t.moduleName).mp ⟨m, hm⟩
        obtain ⟨m, hm⟩ :=
          (ModuleCache.importNamed_nil_iff w.tree root key).mpr (hi.of_needs hneeds)
        exact hkey m hm
      cases halone : (ModuleCache.importNamed [] w.tree root t.moduleName).1 with
      | ok m => exact absurd halone (hfault m)
      | error fault =>
        obtain ⟨symbol?, rfl⟩ : ∃ symbol?, e = ⟨unit, mode.outcome policy t symbol?⟩ := by
          rw [fst_typeExtraction] at he
          split at he
          · cases he
          · exact ⟨_, (Except.ok.inj he).symm⟩
        exact .kept (type?_outcome mode policy t symbol?) hneeds hbefore hkey
          (typeExtraction_of_error halone)

theorem unit_of_extraction (h : (w.extraction mode policy importRoot root cache unit).1 = .ok e) :
    e.unit = unit := by
  unfold extraction at h
  split at h
  · cases h
  · cases h
    rfl
  · rw [fst_typeExtraction] at h
    split at h
    · cases h
    · cases h
      rfl

theorem units_of_extractions {units : List SourceUnit} {es : List Extraction}
    (h : (w.extractions mode policy importRoot root cache units).1 = .ok es) :
    es.map Extraction.unit = units := by
  induction units generalizing cache es with
  | nil =>
    cases h
    rfl
  | cons unit rest ih =>
    unfold extractions at h
    split at h
    · cases h
    · rename_i e middle hfirst
      split at h
      · cases h
      · rename_i others last hothers
        cases h
        rw [List.map_cons, unit_of_extraction (by rw [hfirst]), ih (by rw [hothers])]

theorem IsFresh.loadedBy_eq (h : w.IsFresh) (root : Location) (mode : ExportMode)
    (policy : Policy) (importRoot : Path) (units : List SourceUnit) :
    w.loadedBy root mode policy importRoot units =
      (w.extractions mode policy importRoot root [] units).2 := by
  have hall := ((w.isInBlock_opened root).extractAll mode policy importRoot {} units).2
  rwa [show (w.opened root).modules = [] from h.modules] at hall

theorem IsFresh.extract_opened (h : w.IsFresh) (root : Location) (mode : ExportMode)
    (policy : Policy) (importRoot : Path) (unit : SourceUnit) :
    (((w.opened root).extract mode policy importRoot unit).1,
        ((w.opened root).extract mode policy importRoot unit).2.modules) =
      w.extraction mode policy importRoot root [] unit := by
  have halone := (w.isInBlock_opened root).extract mode policy importRoot unit
  rwa [show (w.opened root).modules = [] from h.modules] at halone

end World

namespace World

open SymbolExport.Text

theorem fst_extract_packageP :
    ((packageOfB.opened []).extract exporterOfP.mode (exporterOfP.policyFor optionsOfP)
      optionsOfP.importRoot packageP).1 =
        .ok ⟨packageP, .exported ⟨"p", "B"⟩ "B" [("LIMIT", .int 2)]⟩ := by
  obtain ⟨-, hpackage⟩ := resolveType_packageOfB
  have hopened := isFresh_packageOfB.extract_opened [] exporterOfP.mode
    (exporterOfP.policyFor optionsOfP) optionsOfP.importRoot packageP
  refine (congrArg Prod.fst hopened).trans ?_
  have htype : (packageOfB.resolveType (.ofLocation packageP.path) optionsOfP.importRoot
      exporterOfP.mode.baseNames?).1 = .ok (some ⟨"p", "B"⟩) := hpackage
  rw [extraction, htype]
  cbv

/-- A package that fails behind the import of its module leaves that loaded. So the module is
exported when the package is tried before, and cannot be imported alone. -/
example :
    let tree : Tree := .directory [("p", .directory
      [("__init__.py", .file [] { imports := ["p.B", "missing"] }),
       ("B.py", .file [] { attributes := [("X", .type (classX 1))] })])]
    let typed := [(packageP, ⟨"p", "P"⟩), (moduleB, (⟨"p.B", "X"⟩ : ResolvedType))]
    (typeExtractions tree .constants {} [] [] typed).1 =
        .ok [⟨packageP, .unloadable ⟨"p", "P"⟩⟩,
          ⟨moduleB, .exported ⟨"p.B", "X"⟩ "X" [("A", .int 1)]⟩] ∧
      (typeExtraction tree .constants {} [] [] moduleB ⟨"p.B", "X"⟩).1 =
        .ok ⟨moduleB, .unloadable ⟨"p.B", "X"⟩⟩ := by
  constructor <;> cbv

end World

end SymbolExport
