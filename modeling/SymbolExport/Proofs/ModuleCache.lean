import SymbolExport.Proofs.DottedName

/-!
What an import makes of the loaded modules. However deep modules import each other, it comes down to
two kinds of steps: the directory of a package is looked up, and a module is loaded from it, which
is known while it is evaluated and in the end is kept or not. What holds of these steps holds of
whole imports.
-/
namespace SymbolExport

variable {tree : Tree} {root directory : Location} {cache middle after : ModuleCache}
  {key name : String} {outer reversed : List String} {m : LoadedModule} {origin : ModuleOrigin}

theorem searchModule_cases (h : searchModule tree directory name = some origin) :
    origin = .package (directory ++ [name]) ∨ origin = .file (directory ++ [name ++ moduleSuffix]) ∨
      origin = .bareDirectory (directory ++ [name]) := by
  simp only [searchModule] at h
  split at h
  · simp_all
  · split at h
    · simp_all
    · split at h <;> simp_all

/-- The name of a module differs from that of its package. -/
theorem dottedName_ne_outer (hn : IsModuleName (name :: outer)) :
    dottedName (name :: outer) ≠ dottedName outer := by
  intro he
  exact List.cons_ne_self name outer (eq_outer_of_dottedName hn hn he)

namespace ModuleCache

def originOf? (cache : ModuleCache) (name : String) : Option ModuleOrigin :=
  (cache.get? name).map LoadedModule.origin

theorem has_eq_isSome_originOf? (cache : ModuleCache) (name : String) :
    cache.has name = (cache.originOf? name).isSome := by
  rw [Table.has_eq_isSome, originOf?, Option.isSome_map]

theorem originOf?_insert (cache : ModuleCache) (key name : String) (m : LoadedModule) :
    originOf? (cache.insert key m) name =
      if name = key then some m.origin else cache.originOf? name := by
  by_cases hk : name = key
  · simp [originOf?, hk]
  · simp [originOf?, hk, Table.get?_insert_of_ne hk]

theorem originOf?_erase (cache : ModuleCache) (key name : String) :
    originOf? (cache.erase key) name = if name = key then none else cache.originOf? name := by
  rw [originOf?, originOf?, Table.get?_erase]
  split <;> rfl

theorem names_insert_of_has (h : cache.has key) : (cache.insert key m).names = cache.names := by
  rw [Table.names_insert, if_pos (Table.has_iff_mem_names.mp h)]

theorem get?_bindChild (cache : ModuleCache) (name key : String) (outer : List String) :
    (cache.bindChild name outer).get? key =
      if key = dottedName outer then (cache.get? key).map fun m =>
        { m with attributes := m.attributes.insert name .module }
      else cache.get? key := by
  unfold bindChild
  split
  · rename_i m hm
    by_cases hk : key = dottedName outer
    · simp [hk, hm]
    · simp [hk, Table.get?_insert_of_ne hk]
  · rename_i hm
    by_cases hk : key = dottedName outer
    · simp [hk, hm]
    · simp [hk]

theorem names_bindChild (cache : ModuleCache) (name : String) (outer : List String) :
    (cache.bindChild name outer).names = cache.names := by
  unfold bindChild
  split
  · rename_i m hm
    exact names_insert_of_has (by simp [Table.has_eq_isSome, hm])
  · rfl

theorem get?_settle (hn : IsModuleName (name :: outer)) (cache : ModuleCache) (m : LoadedModule)
    (key : String) : (cache.settle m name outer).get? key =
      if key = dottedName (name :: outer) then some m
      else if key = dottedName outer then (cache.get? key).map fun n =>
        { n with attributes := n.attributes.insert name .module }
      else cache.get? key := by
  rw [settle, get?_bindChild]
  by_cases hk : key = dottedName (name :: outer)
  · have hne := dottedName_ne_outer hn
    simp [hk, hne]
  · simp [hk, Table.get?_insert_of_ne hk, Table.get?_erase]

theorem originOf?_settle (cache : ModuleCache) (m : LoadedModule) (name : String)
    (outer : List String) (key : String) : (cache.settle m name outer).originOf? key =
      if key = dottedName (name :: outer) then some m.origin else cache.originOf? key := by
  have hbind (c : ModuleCache) : (c.bindChild name outer).originOf? key = c.originOf? key := by
    rw [originOf?, originOf?, get?_bindChild]
    split
    · rw [Option.map_map]
      rfl
    · rfl
  rw [settle, hbind, originOf?_insert, originOf?_erase]
  split <;> simp_all

theorem has_settle : (cache.settle m name outer).has key ↔
    key = dottedName (name :: outer) ∨ cache.has key := by
  rw [has_eq_isSome_originOf?, has_eq_isSome_originOf?, originOf?_settle]
  split <;> simp_all

theorem names_settle (cache : ModuleCache) (m : LoadedModule) (name : String)
    (outer : List String) : (cache.settle m name outer).names =
      cache.names.filter (· ≠ dottedName (name :: outer)) ++ [dottedName (name :: outer)] := by
  have hout : dottedName (name :: outer) ∉
      (cache.erase (dottedName (name :: outer))).names := by
    simp [Table.names_erase]
  rw [settle, names_bindChild, Table.names_insert, if_neg hout, Table.names_erase]

/-- Looking up a directory moves modules; it neither adds nor drops any. -/
theorem names_directoryOf (h : cache.directoryOf tree root reversed = .ok (directory, after)) :
    after.names = cache.names := by
  induction reversed generalizing directory after with
  | nil =>
    cases h
    rfl
  | cons name outer ih =>
    unfold directoryOf at h
    split at h
    · cases h
    · rename_i m hm
      split at h
      · cases h
      · cases h
        rfl
      · rename_i old horigin
        cases hup : cache.directoryOf tree root outer with
        | error fault => simp [hup, Except.map] at h
        | ok upper =>
          obtain ⟨parent, middle⟩ := upper
          have hmiddle := ih hup
          simp only [hup, Except.map, Except.ok.injEq, relocate] at h
          split at h <;> cases h
          · have hhas : middle.has (dottedName (name :: outer)) := by
              rw [Table.has_iff_mem_names, hmiddle, ← Table.has_iff_mem_names,
                Table.has_eq_isSome, hm]
              rfl
            rw [names_insert_of_has hhas, hmiddle]
          · exact hmiddle

theorem has_directoryOf (h : cache.directoryOf tree root reversed = .ok (directory, after))
    (key : String) : after.has key ↔ cache.has key := by
  rw [Table.has_iff_mem_names, names_directoryOf h, ← Table.has_iff_mem_names]

/-- Looking up a directory fails only where a package is gone or has no directory. -/
theorem fault_of_directoryOf {fault : ImportFault}
    (h : cache.directoryOf tree root reversed = .error fault) :
    ∃ parent, fault = .lostParent parent ∨ fault = .parentWithoutPath parent := by
  induction reversed with
  | nil => cases h
  | cons name outer ih =>
    unfold directoryOf at h
    split at h
    · cases h
      exact ⟨_, Or.inl rfl⟩
    · split at h
      · cases h
        exact ⟨_, Or.inr rfl⟩
      · cases h
      · cases hd : cache.directoryOf tree root outer with
        | error other =>
          rw [hd] at h ih
          cases h
          exact ih rfl
        | ok found => simp [hd, Except.map] at h

/-- What it comes to to load a module: it is there, its package cannot be imported, or has imported it
meanwhile, or cannot be searched; or else the module is loaded from the directory of the package. -/
inductive Loading (cache : ModuleCache) (tree : Tree) (root : Location) (importOne : Importer)
    (name : String) (outer : List String) : Except ImportFault LoadedModule × ModuleCache → Prop
  | present {m : LoadedModule} (hm : cache.get? (dottedName (name :: outer)) = some m) :
      Loading cache tree root importOne name outer (.ok m, cache)
  | outermost (hnew : ¬ cache.has (dottedName (name :: outer))) (ho : outer = []) :
      Loading cache tree root importOne name outer (cache.loadFrom tree importOne root name [])
  | package {fault : ImportFault} {loaded : ModuleCache}
      (hnew : ¬ cache.has (dottedName (name :: outer))) (hne : outer ≠ [])
      (hp : cache.loadModule tree root importOne outer = (.error fault, loaded)) :
      Loading cache tree root importOne name outer (.error fault, loaded)
  | meanwhile {package m : LoadedModule} {loaded : ModuleCache}
      (hnew : ¬ cache.has (dottedName (name :: outer)))
      (hne : outer ≠ []) (hp : cache.loadModule tree root importOne outer = (.ok package, loaded))
      (hm : loaded.get? (dottedName (name :: outer)) = some m) :
      Loading cache tree root importOne name outer (.ok m, loaded)
  | notPackage {package : LoadedModule} {loaded : ModuleCache} {place : Location}
      (hnew : ¬ cache.has (dottedName (name :: outer)))
      (hne : outer ≠ []) (hp : cache.loadModule tree root importOne outer = (.ok package, loaded))
      (hfresh : ¬ loaded.has (dottedName (name :: outer))) (hs : package.origin = .file place) :
      Loading cache tree root importOne name outer
        (.error (.notPackage (dottedName (name :: outer)) (dottedName outer)), loaded)
  | lost {package : LoadedModule} {loaded : ModuleCache} {fault : ImportFault}
      (hnew : ¬ cache.has (dottedName (name :: outer)))
      (hne : outer ≠ []) (hp : cache.loadModule tree root importOne outer = (.ok package, loaded))
      (hfresh : ¬ loaded.has (dottedName (name :: outer)))
      (hd : loaded.directoryOf tree root outer = .error fault) :
      Loading cache tree root importOne name outer (.error fault, loaded)
  | searched {package : LoadedModule} {loaded moved : ModuleCache} {directory : Location}
      (hnew : ¬ cache.has (dottedName (name :: outer)))
      (hne : outer ≠ []) (hp : cache.loadModule tree root importOne outer = (.ok package, loaded))
      (hfresh : ¬ loaded.has (dottedName (name :: outer)))
      (hd : loaded.directoryOf tree root outer = .ok (directory, moved)) :
      Loading cache tree root importOne name outer
        (moved.loadFrom tree importOne directory name outer)

theorem loading (cache : ModuleCache) (tree : Tree) (root : Location) (importOne : Importer)
    (name : String) (outer : List String) : Loading cache tree root importOne name outer
      (cache.loadModule tree root importOne (name :: outer)) := by
  cases hm : cache.get? (dottedName (name :: outer)) with
  | some m =>
    simp only [loadModule, hm]
    exact .present hm
  | none =>
    have hnew : ¬ cache.has (dottedName (name :: outer)) := by simp [Table.has_eq_isSome, hm]
    by_cases hne : outer = []
    · subst hne
      simp only [loadModule, hm, List.isEmpty_nil, if_true]
      exact .outermost hnew rfl
    · simp only [loadModule, hm, List.isEmpty_iff, hne, if_false]
      cases hp : cache.loadModule tree root importOne outer with
      | mk result loaded =>
        cases result with
        | error fault => exact .package hnew hne hp
        | ok package =>
          dsimp only
          cases hagain : loaded.get? (dottedName (name :: outer)) with
          | some m => exact .meanwhile hnew hne hp hagain
          | none =>
            have hfresh : ¬ loaded.has (dottedName (name :: outer)) := by
              simp [Table.has_eq_isSome, hagain]
            dsimp only
            split
            · rename_i place hs
              exact .notPackage hnew hne hp hfresh hs
            · cases hd : loaded.directoryOf tree root outer with
              | error fault => exact .lost hnew hne hp hfresh hd
              | ok found => exact .searched hnew hne hp hfresh hd

/-- A relation between the modules that are loaded before and after, which the steps of imports
obey. In a load the middle part is what the evaluation of the module imports. -/
structure IsObeyed (tree : Tree) (root : Location) (R : ModuleCache → ModuleCache → Prop) :
    Prop where
  refl : ∀ cache, R cache cache
  trans : ∀ {cache middle after}, R cache middle → R middle after → R cache after
  move : ∀ {cache moved reversed directory}, (reversed ≠ [] → IsModuleName reversed) →
    cache.directoryOf tree root reversed = .ok (directory, moved) → R cache moved
  load : ∀ {cache moved during : ModuleCache} {directory name outer origin},
    IsModuleName (name :: outer) →
    cache.directoryOf tree root outer = .ok (directory, moved) →
    ¬ moved.has (dottedName (name :: outer)) → searchModule tree directory name = some origin →
    R (moved.insert (dottedName (name :: outer)) ⟨origin, []⟩) during →
    R cache (during.erase (dottedName (name :: outer))) ∧
      R cache (during.settle
        (during.evaluated (dottedName (name :: outer)) origin (origin.body tree)) name outer)

variable {R : ModuleCache → ModuleCache → Prop} {importOne : Importer}

theorem IsObeyed.importEach (h : IsObeyed tree root R)
    (hone : ∀ cache name, R cache (importOne cache name).2) (cache : ModuleCache)
    (names : List String) : R cache (importOne.importEach cache names).2 := by
  induction names generalizing cache with
  | nil => exact h.refl cache
  | cons name rest ih =>
    have hfirst := hone cache name
    unfold Importer.importEach
    generalize importOne cache name = imported at hfirst ⊢
    obtain ⟨result, after⟩ := imported
    cases result with
    | error fault => exact hfirst
    | ok m => exact h.trans hfirst (ih after)

theorem IsObeyed.evaluate (h : IsObeyed tree root R)
    (hone : ∀ cache name, R cache (importOne cache name).2) (body : ModuleBody)
    (cache : ModuleCache) : R cache (body.evaluate importOne cache).2 := by
  have himports := h.importEach hone cache body.imports
  unfold ModuleBody.evaluate
  generalize importOne.importEach cache body.imports = imported at himports ⊢
  obtain ⟨result, after⟩ := imported
  cases result with
  | error fault => exact himports
  | ok =>
    dsimp only
    split <;> exact himports

theorem IsObeyed.loadFrom (h : IsObeyed tree root R)
    (hone : ∀ cache name, R cache (importOne cache name).2) (hn : IsModuleName (name :: outer))
    (hd : cache.directoryOf tree root outer = .ok (directory, middle))
    (hnew : ¬ middle.has (dottedName (name :: outer))) :
    R cache (middle.loadFrom tree importOne directory name outer).2 := by
  unfold ModuleCache.loadFrom
  dsimp only
  split
  · exact h.move (fun hne => hn.tail hne) hd
  · rename_i origin hs
    have hduring := h.evaluate hone (origin.body tree)
      (middle.insert (dottedName (name :: outer)) ⟨origin, []⟩)
    generalize (origin.body tree).evaluate importOne _ = evaluated at hduring ⊢
    obtain ⟨result, during⟩ := evaluated
    obtain ⟨hdropped, hkept⟩ := h.load hn hd hnew hs hduring
    cases result with
    | error fault => exact hdropped
    | ok => exact hkept

theorem IsObeyed.loadModule (h : IsObeyed tree root R)
    (hone : ∀ cache name, R cache (importOne cache name).2) (hn : IsModuleName reversed)
    (cache : ModuleCache) : R cache (cache.loadModule tree root importOne reversed).2 := by
  induction reversed with
  | nil => exact absurd rfl hn.ne_nil
  | cons name outer ih =>
    have hloading := loading cache tree root importOne name outer
    generalize cache.loadModule tree root importOne (name :: outer) = loaded at hloading ⊢
    cases hloading with
    | present => exact h.refl cache
    | outermost hnew ho =>
      subst ho
      exact h.loadFrom hone hn rfl hnew
    | package _ hne hp | meanwhile _ hne hp | notPackage _ hne hp | lost _ hne hp =>
      have hup := ih (hn.tail hne)
      rwa [hp] at hup
    | searched _ hne hp hfresh hd =>
      have hup := ih (hn.tail hne)
      rw [hp] at hup
      exact h.trans hup (h.loadFrom hone hn hd (mt (has_directoryOf hd _).mp hfresh))

/-- A name is malformed whatever is loaded, or has components that can be loaded. -/
theorem importWithin_cases (tree : Tree) (root : Location) (depth : Nat) (name : String) :
    (¬ IsModuleName (componentsOf name) ∧ ∀ cache,
        importWithin tree root (depth + 1) cache name = (.error .malformedName, cache)) ∨
      IsModuleName (componentsOf name) ∧ ∀ cache,
        importWithin tree root (depth + 1) cache name =
          cache.loadModule tree root (importWithin tree root depth) (componentsOf name) := by
  unfold importWithin
  cases hl : name.toList with
  | nil => exact Or.inl ⟨not_isModuleName_componentsOf (Or.inl hl), fun _ => rfl⟩
  | cons c rest =>
    by_cases hc : c = '.'
    · subst hc
      exact Or.inl ⟨not_isModuleName_componentsOf (Or.inr ⟨rest, hl⟩), fun _ => rfl⟩
    · right
      refine ⟨isModuleName_componentsOf hl hc, fun cache => ?_⟩
      split
      · simp_all
      · simp_all
      · rfl

/-- What the steps of imports obey, whole imports obey. -/
theorem IsObeyed.importWithin (h : IsObeyed tree root R) (depth : Nat) (cache : ModuleCache)
    (name : String) : R cache (importWithin tree root depth cache name).2 := by
  induction depth generalizing cache name with
  | zero => exact h.refl cache
  | succ depth ih =>
    rcases importWithin_cases tree root depth name with ⟨-, he⟩ | ⟨hn, he⟩
    · rw [he]
      exact h.refl cache
    · rw [he]
      exact h.loadModule ih hn cache

theorem IsObeyed.importNamed (h : IsObeyed tree root R) (cache : ModuleCache) (name : String) :
    R cache (cache.importNamed tree root name).2 :=
  h.importWithin tree.importDepth cache name

/-- Modules that are loaded stay loaded. -/
theorem isObeyed_has (tree : Tree) (root : Location) :
    IsObeyed tree root fun cache after => ∀ key, cache.has key → after.has key where
  refl _ _ h := h
  trans h h' key hk := h' key (h key hk)
  move hn hd key hk := (has_directoryOf hd key).mpr hk
  load {cache moved during directory name outer origin} hn hd hnew hs hduring := by
    have hall (key : String) (hk : cache.has key) :
        during.has key ∧ key ≠ dottedName (name :: outer) := by
      have hmoved : moved.has key := (has_directoryOf hd key).mpr hk
      refine ⟨hduring key (Table.has_insert.mpr (Or.inr hmoved)), ?_⟩
      rintro rfl
      exact hnew hmoved
    exact ⟨fun key hk => Table.has_erase.mpr (hall key hk).symm,
      fun key hk => has_settle.mpr (Or.inr (hall key hk).1)⟩

theorem get?_loadFrom (hn : IsModuleName (name :: outer))
    (h : (cache.loadFrom tree importOne directory name outer).1 = .ok m) :
    (cache.loadFrom tree importOne directory name outer).2.get? (dottedName (name :: outer)) =
      some m := by
  revert h
  unfold loadFrom
  dsimp only
  split
  · simp
  · generalize ModuleBody.evaluate _ _ _ = evaluated
    obtain ⟨result, during⟩ := evaluated
    cases result with
    | error fault => simp
    | ok =>
      rintro ⟨⟩
      simp [get?_settle hn]

theorem get?_loadModule (hn : IsModuleName reversed)
    (h : (cache.loadModule tree root importOne reversed).1 = .ok m) :
    (cache.loadModule tree root importOne reversed).2.get? (dottedName reversed) = some m := by
  cases reversed with
  | nil => exact absurd rfl hn.ne_nil
  | cons name outer =>
    have hloading := loading cache tree root importOne name outer
    generalize cache.loadModule tree root importOne (name :: outer) = loaded at hloading h ⊢
    cases hloading with
    | present hm | meanwhile _ _ _ hm =>
      cases h
      exact hm
    | outermost _ ho =>
      subst ho
      exact get?_loadFrom hn h
    | package | notPackage | lost => cases h
    | searched => exact get?_loadFrom hn h

/-- An import that succeeds gives a module that is loaded then. -/
theorem get?_importWithin {depth : Nat} (h : (importWithin tree root depth cache name).1 = .ok m) :
    IsModuleName (componentsOf name) ∧
      (importWithin tree root depth cache name).2.get? name = some m := by
  cases depth with
  | zero => cases h
  | succ depth =>
    rcases importWithin_cases tree root depth name with ⟨-, he⟩ | ⟨hn, he⟩
    · rw [he] at h
      cases h
    · refine ⟨hn, ?_⟩
      rw [he] at h ⊢
      have hm := get?_loadModule hn h
      rwa [dottedName_componentsOf] at hm

end ModuleCache

end SymbolExport
