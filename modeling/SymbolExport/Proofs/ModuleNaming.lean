import SymbolExport.Proofs.DeclarationFile
import SymbolExport.Proofs.SharedName

/-!
Which files have a module name, and what becomes of it. A name is put together from the names on the
way from the import root to the file. The class that is found in the file is named behind it, and
both come apart again where they were joined.
-/
namespace SymbolExport

open SymbolExport.Text

/-- The names that lead from a root to a file strictly below it. The last one stands without its
extension, or not at all if that leaves `__init__`. -/
inductive HasComponents (file root : Location) : List String → Prop
  | module {directories : List String} {last stem : String}
      (hfile : file = root ++ directories ++ [last]) (hs : HasStem last stem)
      (hi : stem ≠ "__init__") : HasComponents file root (directories ++ [stem])
  | package {directories : List String} {last : String}
      (hfile : file = root ++ directories ++ [last]) (hs : HasStem last "__init__") :
      HasComponents file root directories

/-- The name of the module in the file at a path, as it is seen from an import root. -/
def World.moduleNameOf? (w : World) (path importRoot : Path) : Except Failure (Option String) := do
  let file ← w.resolve path
  let root ← w.resolve importRoot
  (moduleName? file root).mapError Failure.emptyName

/-- What a path is from itself. -/
def hereName : EmptyName where
  path := ⟨.relative, []⟩

variable {file root : Location} {names : List String} {name stem moduleName : String}
  {w : World} {path importRoot : Path} {bases? : Option (List String)} {source : List Char}

theorem hasStem_iff : HasStem name stem ↔ Path.stemOf name = stem := by
  refine ⟨HasStem.stemOf_eq, ?_⟩
  rintro rfl
  by_cases h : ∃ front extension, HasExtension name front extension
  · obtain ⟨front, extension, h⟩ := h
    exact Or.inl ⟨extension, h.stemOf_eq ▸ h⟩
  · have hbare : ∀ front extension, ¬ HasExtension name front extension :=
      fun front extension hext => h ⟨front, extension, hext⟩
    exact Or.inr ⟨Path.stemOf_of_bare hbare, hbare⟩

theorem hasComponents_iff : HasComponents file root names ↔
    ∃ directories last, file = root ++ directories ++ [last] ∧
      names = namesModule directories last := by
  constructor
  · rintro (⟨hfile, hs, hi⟩ | ⟨hfile, hs⟩)
    · rw [hasStem_iff] at hs
      exact ⟨_, _, hfile, by simp [namesModule, hs, hi]⟩
    · rw [hasStem_iff] at hs
      exact ⟨_, _, hfile, by simp [namesModule, hs]⟩
  · rintro ⟨directories, last, hfile, rfl⟩
    unfold namesModule
    split
    · rename_i hi
      exact .package hfile (hasStem_iff.mpr hi)
    · rename_i hi
      exact .module hfile (hasStem_iff.mpr rfl) hi

/-- A file has the name of its components, if there are any and all are identifiers. -/
theorem moduleName?_eq_some_iff : moduleName? file root = .ok (some moduleName) ↔
    ∃ names, HasComponents file root names ∧ names ≠ [] ∧
      (∀ name ∈ names, isIdentifier name.toList) ∧ ".".intercalate names = moduleName := by
  constructor
  · intro h
    obtain ⟨directories, last, hfile, hdotted⟩ := dotted?_of_moduleName? h
    rw [dropInit_concat, dotted?_eq_some_iff] at hdotted
    exact ⟨_, hasComponents_iff.mpr ⟨directories, last, hfile, rfl⟩, hdotted⟩
  · rintro ⟨names, hnames, hdotted⟩
    obtain ⟨directories, last, rfl, rfl⟩ := hasComponents_iff.mp hnames
    rw [moduleName?_append, dropInit_concat, dotted?_eq_some_iff.mpr hdotted]

/-- Only the root itself cannot be named. -/
theorem moduleName?_eq_error_iff {e : EmptyName} :
    moduleName? file root = .error e ↔ file = root ∧ e = hereName := by
  constructor
  · intro h
    obtain rfl : file = root := by
      by_contra hne
      obtain ⟨name?, hname⟩ := World.exists_moduleName? hne
      rw [hname] at h
      cases h
    have hhere : moduleName? file file = .error hereName := by
      simp [moduleName?, Path.relativeTo?, Path.ofLocation, Path.withoutSuffix?, Path.withName?,
        hereName]
    rw [hhere] at h
    exact ⟨rfl, (Except.error.inj h).symm⟩
  · rintro ⟨rfl, rfl⟩
    simp [moduleName?, Path.relativeTo?, Path.ofLocation, Path.withoutSuffix?, Path.withName?,
      hereName]

/-- A file without a name lies outside of the root, or has no components, or one that is no
identifier. -/
theorem moduleName?_eq_none_iff : moduleName? file root = .ok none ↔ file ≠ root ∧
    ∀ names, HasComponents file root names →
      names = [] ∨ ∃ name ∈ names, isIdentifier name.toList = false := by
  constructor
  · intro h
    refine ⟨fun heq => ?_, fun names hnames => ?_⟩
    · rw [moduleName?_eq_error_iff.mpr ⟨heq, rfl⟩] at h
      cases h
    · by_contra hnot
      simp only [not_or, not_exists, not_and, Bool.not_eq_false] at hnot
      rw [moduleName?_eq_some_iff.mpr ⟨names, hnames, hnot.1, hnot.2, rfl⟩] at h
      cases h
  · rintro ⟨hne, hnone⟩
    obtain ⟨name?, hname⟩ := World.exists_moduleName? hne
    cases name? with
    | none => exact hname
    | some moduleName =>
      obtain ⟨names, hnames, hsome, hall, -⟩ := moduleName?_eq_some_iff.mp hname
      obtain ⟨name, hm, hno⟩ := (hnone names hnames).resolve_left hsome
      rw [hall name hm] at hno
      cases hno

namespace World

theorem moduleNameOf?_eq_ok_iff {name? : Option String} :
    w.moduleNameOf? path importRoot = .ok name? ↔ ∃ file root, w.resolve path = .ok file ∧
      w.resolve importRoot = .ok root ∧ moduleName? file root = .ok name? := by
  unfold moduleNameOf?
  cases hf : w.resolve path with
  | error failure => simp [bind, Except.bind]
  | ok file =>
    cases hr : w.resolve importRoot with
    | error failure => simp [bind, Except.bind]
    | ok root =>
      cases hm : moduleName? file root <;> simp [hm, bind, Except.bind, Except.mapError]

theorem moduleNameOf?_eq_error_iff {failure : Failure} :
    w.moduleNameOf? path importRoot = .error failure ↔ w.resolve path = .error failure ∨
      (∃ file, w.resolve path = .ok file) ∧ w.resolve importRoot = .error failure ∨
      ∃ place, w.resolve path = .ok place ∧ w.resolve importRoot = .ok place ∧
        failure = .emptyName hereName := by
  unfold moduleNameOf?
  cases hf : w.resolve path with
  | error failure => simp [bind, Except.bind]
  | ok file =>
    cases hr : w.resolve importRoot with
    | error failure => simp [bind, Except.bind]
    | ok root =>
      cases hm : moduleName? file root with
      | error e =>
        obtain ⟨rfl, rfl⟩ := moduleName?_eq_error_iff.mp hm
        simp [hm, bind, Except.bind, Except.mapError, eq_comm]
      | ok name? =>
        have hne : file ≠ root := by
          rintro rfl
          rw [moduleName?_eq_error_iff.mpr ⟨rfl, rfl⟩] at hm
          cases hm
        simp [hm, bind, Except.bind, Except.mapError, Ne.symm hne]

/-- Every pair of a path and an import root is decided: a file strictly below the root has a name
exactly if its components are identifiers, and there is one. What fails is to find one of the two
places, or to name the import root itself. -/
theorem moduleNameOf?_decides (w : World) (path importRoot : Path) :
    (∀ moduleName, w.moduleNameOf? path importRoot = .ok (some moduleName) ↔
      ∃ file root names, w.resolve path = .ok file ∧ w.resolve importRoot = .ok root ∧
        HasComponents file root names ∧ names ≠ [] ∧
        (∀ name ∈ names, isIdentifier name.toList) ∧ ".".intercalate names = moduleName) ∧
    (w.moduleNameOf? path importRoot = .ok none ↔
      ∃ file root, w.resolve path = .ok file ∧ w.resolve importRoot = .ok root ∧ file ≠ root ∧
        ∀ names, HasComponents file root names →
          names = [] ∨ ∃ name ∈ names, isIdentifier name.toList = false) ∧
    ∀ failure, w.moduleNameOf? path importRoot = .error failure ↔
      w.resolve path = .error failure ∨
      (∃ file, w.resolve path = .ok file) ∧ w.resolve importRoot = .error failure ∨
      ∃ place, w.resolve path = .ok place ∧ w.resolve importRoot = .ok place ∧
        failure = .emptyName hereName := by
  refine ⟨fun moduleName => ?_, ?_, fun failure => moduleNameOf?_eq_error_iff⟩
  · simp only [moduleNameOf?_eq_ok_iff, moduleName?_eq_some_iff]
    constructor
    · rintro ⟨file, root, hf, hr, names, hnames⟩
      exact ⟨file, root, names, hf, hr, hnames⟩
    · rintro ⟨file, root, names, hf, hr, hnames⟩
      exact ⟨file, root, hf, hr, names, hnames⟩
  · simp only [moduleNameOf?_eq_ok_iff, moduleName?_eq_none_iff]

/-- A project with a directory `app`. -/
def namelessProject : World where
  tree := .directory [("app", .empty)]
  cwd := []
  home := []

/-- The way to the import root by a directory below it is refused with a fault, where there is just
no name. -/
theorem moduleNameOf?_namelessProject :
    namelessProject.resolve (.ofString "app/..") = namelessProject.resolve (.ofString ".") ∧
    namelessProject.moduleNameOf? (.ofString "app/..") (.ofString ".") =
      .error (.emptyName hereName) ∧
    hereName.message = "PosixPath('.') has an empty name" := by
  have hlinks : namelessProject.tree.isLinkFree := rfl
  have hpath : namelessProject.resolve (.ofString "app/..") = .ok [] := by
    rw [resolve, Tree.resolve_eq hlinks]
    cbv
  have hroot : namelessProject.resolve (.ofString ".") = .ok [] := by
    rw [resolve, Tree.resolve_eq hlinks]
    cbv
  refine ⟨hpath.trans hroot.symm, ?_, by decide +kernel⟩
  exact moduleNameOf?_eq_error_iff.mpr (Or.inr (Or.inr ⟨[], hpath, hroot, rfl⟩))

/-! The class of a file is named by the file's module and a token of the file. -/

theorem fst_resolveType_eq (w : World) (path importRoot : Path) (bases? : Option (List String)) :
    (w.resolveType path importRoot bases?).1 =
      match w.readSource path with
      | .error _ => .ok none
      | .ok source => (w.moduleNameOf? path importRoot).map fun moduleName? =>
          (w.extractName source moduleName? bases?).1.map ResolvedType.ofQualified := by
  unfold resolveType moduleNameOf?
  cases w.readSource path with
  | error reason => rfl
  | ok source =>
    dsimp only
    cases w.resolve path with
    | error failure => rfl
    | ok file =>
      cases w.resolve importRoot with
      | error failure => rfl
      | ok root =>
        cases hm : moduleName? file root <;>
          simp [hm, bind, Except.bind, Except.mapError, Except.map]

/-- A full name ends in the name of a declaration, which is a word. -/
theorem exists_token_of_extractName {moduleName? : Option String} {full : String}
    (h : (w.extractName source moduleName? bases?).1 = some full) :
    ∃ moduleName tokens t, moduleName? = some moduleName ∧ tokenize source = .ok tokens ∧
      t ∈ tokens ∧ t.kind = .name ∧ '.' ∉ t.text ∧
      full = moduleName ++ "." ++ String.ofList t.text := by
  unfold extractName at h
  cases ht : tokenize source with
  | error fault =>
    rw [ht] at h
    cases h
  | ok tokens =>
    rw [ht] at h
    dsimp only at h
    unfold qualifiedName? at h
    split at h
    · rename_i moduleName name hname
      split at h
      · cases h
      · obtain ⟨t, hm, hkind, rfl⟩ := mem_of_declaredName? hname
        exact ⟨moduleName, tokens, t, rfl, rfl, hm, hkind, dot_notMem_declaredName ht hname,
          (Option.some.inj h).symm⟩
    · cases h

/-- A file is found to declare a class exactly if it has a module name and the full name that is
read from it is that name, a dot, and the text of a name token without a dot. -/
theorem resolveType_eq_some_iff {t : ResolvedType} :
    (w.resolveType path importRoot bases?).1 = .ok (some t) ↔
      w.moduleNameOf? path importRoot = .ok (some t.moduleName) ∧
      ∃ source tokens u, w.readSource path = .ok source ∧ tokenize source = .ok tokens ∧
        u ∈ tokens ∧ u.kind = .name ∧ t.name = String.ofList u.text ∧ '.' ∉ t.name.toList ∧
        (w.extractName source (some t.moduleName) bases?).1 =
          some (t.moduleName ++ "." ++ t.name) := by
  rw [fst_resolveType_eq]
  constructor
  · intro h
    cases hs : w.readSource path with
    | error reason =>
      rw [hs] at h
      cases h
    | ok source =>
      rw [hs] at h
      dsimp only at h
      cases hm : w.moduleNameOf? path importRoot with
      | error failure =>
        rw [hm] at h
        cases h
      | ok moduleName? =>
        rw [hm] at h
        obtain ⟨full, hfull, rfl⟩ := Option.map_eq_some_iff.mp (Except.ok.inj h)
        obtain ⟨moduleName, tokens, u, rfl, htokens, hu, hkind, hdot, rfl⟩ :=
          exists_token_of_extractName hfull
        rw [ofQualified_append hdot]
        exact ⟨rfl, source, tokens, u, rfl, htokens, hu, hkind, rfl, by simpa using hdot, hfull⟩
  · rintro ⟨hm, source, tokens, u, hs, -, -, -, hname, hdot, hfull⟩
    rw [hs, hm]
    have hcut : ResolvedType.ofQualified (t.moduleName ++ "." ++ t.name) = t := by
      rw [hname] at hdot ⊢
      rw [ofQualified_append (by simpa using hdot), ← hname]
    simp [Except.map, hfull, hcut]

end World

end SymbolExport
