import SymbolExport.Proofs.Eviction
import SymbolExport.Proofs.ImportDepth

/-!
What imports come to. When no module is loaded from elsewhere, where a name is found is known from
the files, so all that the imports tell of the modules is which of them are loaded.
-/
namespace SymbolExport

/-- The names of the loaded modules by their components, the last one first. -/
def ModuleCache.loadedNames (cache : ModuleCache) : Set (List String) :=
  {reversed | IsModuleName reversed ∧ cache.has (dottedName reversed)}

/-- The package around a name, if there is one. -/
def packageOf (outer : List String) : List (List String) :=
  if outer = [] then [] else [outer]

/-- The submodules of a name can be searched: the packages on the way to it are loaded, up to one
that is no bare directory. -/
def Tree.HasPath (tree : Tree) (root : Location) (known : Set (List String)) :
    List String → Prop
  | [] => True
  | name :: outer => name :: outer ∈ known ∧
    match tree.namedOrigin? root (name :: outer) with
    | some (.package _) => True
    | some (.bareDirectory _) => HasPath tree root known outer
    | _ => False

/-- What an import raises, if its fault is not one of the search. -/
def ImportFault.raised? : ImportFault → Option Raised
  | raised r => some r
  | _ => none

/-- How the evaluation of a body ends whose imports end in some way. -/
def ModuleBody.ending (body : ModuleBody) :
    Except (Option Raised) Unit → Except (Option Raised) Unit
  | .error fault => .error fault
  | .ok () =>
    match body.raised? with
    | some r => .error (some r)
    | none => .ok ()

/-- Imports of some names one after the other: which modules are loaded before and afterwards, and
how they end. A package is imported before what is in it, and may import that itself; a module counts
as loaded while it is evaluated, and no more if that fails. -/
inductive Imports (tree : Tree) (root : Location) : Set (List String) → List (List String) →
    Except (Option Raised) Unit → Set (List String) → Prop
  | done {known} : Imports tree root known [] (.ok ()) known
  | malformed {known reversed rest} (hbad : ¬ IsModuleName reversed) :
      Imports tree root known (reversed :: rest) (.error none) known
  | present {known after reversed rest ending} (hn : IsModuleName reversed) (hk : reversed ∈ known)
      (hrest : Imports tree root known rest ending after) :
      Imports tree root known (reversed :: rest) ending after
  | package {known after name outer rest fault} (hn : IsModuleName (name :: outer))
      (hnew : name :: outer ∉ known)
      (hpackage : Imports tree root known (packageOf outer) (.error fault) after) :
      Imports tree root known ((name :: outer) :: rest) (.error fault) after
  | meanwhile {known middle after name outer rest ending} (hn : IsModuleName (name :: outer))
      (hnew : name :: outer ∉ known)
      (hpackage : Imports tree root known (packageOf outer) (.ok ()) middle)
      (hk : name :: outer ∈ middle) (hrest : Imports tree root middle rest ending after) :
      Imports tree root known ((name :: outer) :: rest) ending after
  | unfound {known middle name outer rest} (hn : IsModuleName (name :: outer))
      (hnew : name :: outer ∉ known)
      (hpackage : Imports tree root known (packageOf outer) (.ok ()) middle)
      (hfresh : name :: outer ∉ middle)
      (hs : tree.HasPath root middle outer → tree.namedOrigin? root (name :: outer) = none) :
      Imports tree root known ((name :: outer) :: rest) (.error none) middle
  | fails {known middle during name outer rest origin ended fault}
      (hn : IsModuleName (name :: outer)) (hnew : name :: outer ∉ known)
      (hpackage : Imports tree root known (packageOf outer) (.ok ()) middle)
      (hfresh : name :: outer ∉ middle) (hpath : tree.HasPath root middle outer)
      (hs : tree.namedOrigin? root (name :: outer) = some origin)
      (hbody : Imports tree root (insert (name :: outer) middle)
        ((origin.body tree).imports.map componentsOf) ended during)
      (hend : (origin.body tree).ending ended = .error fault) :
      Imports tree root known ((name :: outer) :: rest) (.error fault) (during \ {name :: outer})
  | loads {known middle during after name outer rest origin ended ending}
      (hn : IsModuleName (name :: outer)) (hnew : name :: outer ∉ known)
      (hpackage : Imports tree root known (packageOf outer) (.ok ()) middle)
      (hfresh : name :: outer ∉ middle) (hpath : tree.HasPath root middle outer)
      (hs : tree.namedOrigin? root (name :: outer) = some origin)
      (hbody : Imports tree root (insert (name :: outer) middle)
        ((origin.body tree).imports.map componentsOf) ended during)
      (hend : (origin.body tree).ending ended = .ok ())
      (hrest : Imports tree root during rest ending after) :
      Imports tree root known ((name :: outer) :: rest) ending after

variable {tree : Tree} {root directory : Location} {cache after : ModuleCache}
  {known middle : Set (List String)} {name : String} {outer reversed : List String}
  {goals : List (List String)} {names : List String} {m : LoadedModule} {origin : ModuleOrigin}
  {fault : ImportFault} {body : ModuleBody} {depth : Nat} {α : Type}

namespace ModuleCache

theorem mem_loadedNames_iff (hn : IsModuleName reversed) :
    reversed ∈ cache.loadedNames ↔ cache.has (dottedName reversed) :=
  ⟨And.right, fun h => ⟨hn, h⟩⟩

theorem loadedNames_nil : loadedNames [] = ∅ := by
  simp [loadedNames, Table.has]

theorem loadedNames_insert (hn : IsModuleName reversed) :
    loadedNames (cache.insert (dottedName reversed) m) = insert reversed cache.loadedNames := by
  ext other
  by_cases he : other = reversed
  · subst he
    simp [loadedNames, hn, Table.has_insert]
  · have hne (ho : IsModuleName other) : dottedName other ≠ dottedName reversed :=
      fun hd => he (dottedName_inj ho hn hd)
    simp only [loadedNames, Set.mem_ofPred_eq, Table.has_insert, Set.mem_insert_iff, he, false_or]
    exact and_congr_right fun ho => or_iff_right (hne ho)

theorem loadedNames_erase (hn : IsModuleName reversed) :
    loadedNames (cache.erase (dottedName reversed)) = cache.loadedNames \ {reversed} := by
  ext other
  by_cases he : other = reversed
  · subst he
    simp [loadedNames, Table.has_erase]
  · have hne (ho : IsModuleName other) : dottedName other ≠ dottedName reversed :=
      fun hd => he (dottedName_inj ho hn hd)
    simp only [loadedNames, Set.mem_ofPred_eq, Table.has_erase, Set.mem_sdiff,
      Set.mem_singleton_iff, he, not_false_iff, and_true]
    exact and_congr_right fun ho => and_iff_right (hne ho)

theorem loadedNames_settle (h : cache.has (dottedName (name :: outer))) :
    (cache.settle m name outer).loadedNames = cache.loadedNames := by
  ext other
  simp only [loadedNames, Set.mem_ofPred_eq, has_settle]
  exact and_congr_right fun _ => or_iff_right_of_imp fun he => he ▸ h

/-- Whether the path of a package is known is told by the names that are loaded. -/
theorem Sound.hasPath_iff (h : Sound tree root cache) (hn : outer ≠ [] → IsModuleName outer) :
    cache.HasPath outer ↔ tree.HasPath root cache.loadedNames outer := by
  induction outer with
  | nil => simp [ModuleCache.HasPath, Tree.HasPath]
  | cons name outer ih =>
    have hname := hn (List.cons_ne_nil name outer)
    rw [ModuleCache.HasPath, Tree.HasPath, mem_loadedNames_iff hname, has_eq_isSome_originOf?]
    cases ho : cache.originOf? (dottedName (name :: outer)) with
    | none => simp
    | some origin =>
      rw [h.namedOrigin? hname ho]
      cases origin with
      | file place => simp
      | package place => simp
      | bareDirectory place => simpa using ih hname.tail

end ModuleCache

open ModuleCache

/-- How an import ends, whatever module it gives. -/
def endingOf (result : Except ImportFault α) : Except (Option Raised) Unit :=
  (result.map fun _ => ()).mapError ImportFault.raised?

/-- Imports of some names do as they should: what is imported behind them starts from the modules
that they leave loaded, and what they fail with ends it. -/
def Follows (tree : Tree) (root : Location) (known : Set (List String))
    (goals : List (List String)) (result : Except ImportFault α) (middle : Set (List String)) :
    Prop :=
  match result with
  | .ok _ => ∀ rest ending after, Imports tree root middle rest ending after →
      Imports tree root known (goals ++ rest) ending after
  | .error fault => ∀ rest, Imports tree root known (goals ++ rest) (.error fault.raised?) middle

theorem Follows.imports {result : Except ImportFault α}
    (h : Follows tree root known goals result middle) :
    Imports tree root known goals (endingOf result) middle := by
  cases result with
  | error fault => simpa [endingOf, Except.map, Except.mapError] using h []
  | ok a => simpa [endingOf, Except.map, Except.mapError] using h [] (.ok ()) middle .done

/-- Imports of a depth do as they should, unless they are nested deeper than that. -/
def IsFollowed (tree : Tree) (root : Location) (depth : Nat) : Prop :=
  ∀ cache name, Sound tree root cache →
    (importWithin tree root depth cache name).1 ≠ .error .nestedTooDeep →
    Follows tree root cache.loadedNames [componentsOf name]
      (importWithin tree root depth cache name).1
      (importWithin tree root depth cache name).2.loadedNames

namespace IsFollowed

theorem importEach (h : IsFollowed tree root depth) (hc : Sound tree root cache)
    (names : List String)
    (hdeep : (Importer.importEach (importWithin tree root depth) cache names).1 ≠
      .error .nestedTooDeep) :
    Follows tree root cache.loadedNames (names.map componentsOf)
      (Importer.importEach (importWithin tree root depth) cache names).1
      (Importer.importEach (importWithin tree root depth) cache names).2.loadedNames := by
  induction names generalizing cache with
  | nil => exact fun _ _ _ hrest => hrest
  | cons name rest ih =>
    have hfirst := h cache name hc
    have hnext := hc.importWithin depth name
    unfold Importer.importEach at hdeep ⊢
    generalize importWithin tree root depth cache name = imported at hfirst hnext hdeep ⊢
    obtain ⟨result, after⟩ := imported
    cases result with
    | error fault => exact fun more => hfirst (by simpa using hdeep) (rest.map componentsOf ++ more)
    | ok m =>
      have hothers := ih hnext hdeep
      dsimp only at hothers ⊢
      generalize Importer.importEach _ after rest = last at hothers ⊢
      obtain ⟨result, last⟩ := last
      cases result with
      | error fault => exact fun more => hfirst (by simp) _ _ _ (hothers more)
      | ok => exact fun more _ _ hmore => hfirst (by simp) _ _ _ (hothers more _ _ hmore)

theorem loadFrom (h : IsFollowed tree root depth) (hc : Sound tree root cache)
    (hn : IsModuleName (name :: outer)) (hnew : name :: outer ∉ known)
    (hpackage : Imports tree root known (packageOf outer) (.ok ()) cache.loadedNames)
    (hfresh : ¬ cache.has (dottedName (name :: outer)))
    (hd : cache.directoryOf tree root outer = .ok (directory, cache))
    (hdeep : (cache.loadFrom tree (importWithin tree root depth) directory name outer).1 ≠
      .error .nestedTooDeep) :
    Follows tree root known [name :: outer]
      (cache.loadFrom tree (importWithin tree root depth) directory name outer).1
      (cache.loadFrom tree (importWithin tree root depth) directory name outer).2.loadedNames := by
  have hout : name :: outer ∉ cache.loadedNames := mt And.right hfresh
  have hhome := (hc.directoryOf (fun hne => hn.tail hne) hd).1
  have hpath : tree.HasPath root cache.loadedNames outer :=
    (hc.hasPath_iff hn.tail).mp ((exists_directoryOf_iff cache tree root outer).mp ⟨_, _, hd⟩)
  have hnamed : tree.namedOrigin? root (name :: outer) = searchModule tree directory name := by
    rw [Tree.namedOrigin?, homeOf_nil hhome]
  unfold ModuleCache.loadFrom at hdeep ⊢
  dsimp only at hdeep ⊢
  cases hs : searchModule tree directory name with
  | none => exact fun rest => .unfound hn hnew hpackage hout fun _ => hnamed.trans hs
  | some origin =>
    rw [hs] at hdeep hnamed
    have hfound : FoundAs [] tree root (dottedName (name :: outer)) origin :=
      ⟨name, outer, directory, hn, rfl, hhome, hs⟩
    have heach := h.importEach (hc.begin hfresh hfound) (origin.body tree).imports
    have hgrows := (isObeyed_has tree root).importEach
      ((isObeyed_has tree root).importWithin depth)
      (cache.insert (dottedName (name :: outer)) ⟨origin, []⟩) (origin.body tree).imports
      (dottedName (name :: outer)) (Table.has_insert.mpr (Or.inl rfl))
    dsimp only at hdeep ⊢
    unfold ModuleBody.evaluate at hdeep ⊢
    rw [loadedNames_insert hn] at heach
    generalize Importer.importEach _ _ (origin.body tree).imports = imported at heach hgrows hdeep ⊢
    obtain ⟨result, during⟩ := imported
    cases result with
    | error fault =>
      have hbody := (heach (by simpa using hdeep)).imports
      intro rest
      dsimp only
      rw [loadedNames_erase hn]
      exact .fails hn hnew hpackage hout hpath hnamed hbody rfl
    | ok =>
      have hbody := (heach (by simp)).imports
      cases hr : (origin.body tree).raised? with
      | some r =>
        intro rest
        dsimp only
        rw [loadedNames_erase hn]
        exact .fails hn hnew hpackage hout hpath hnamed hbody
          (by simp [endingOf, Except.map, Except.mapError, ModuleBody.ending, hr, ImportFault.raised?])
      | none =>
        intro rest ending after hrest
        dsimp only at hrest
        rw [loadedNames_settle hgrows] at hrest
        exact .loads hn hnew hpackage hout hpath hnamed hbody
          (by simp [endingOf, Except.map, Except.mapError, ModuleBody.ending, hr]) hrest

theorem loadModule (h : IsFollowed tree root depth) (hc : Sound tree root cache)
    (hn : IsModuleName reversed)
    (hdeep : (cache.loadModule tree root (importWithin tree root depth) reversed).1 ≠
      .error .nestedTooDeep) :
    Follows tree root cache.loadedNames [reversed]
      (cache.loadModule tree root (importWithin tree root depth) reversed).1
      (cache.loadModule tree root (importWithin tree root depth) reversed).2.loadedNames := by
  induction reversed with
  | nil => exact absurd rfl hn.ne_nil
  | cons name outer ih =>
    have hof (hne : outer ≠ []) : packageOf outer = [outer] := if_neg hne
    have hup (hne : outer ≠ []) := ih (hn.tail hne)
    have hnext (hne : outer ≠ []) := hc.loadModule depth (hn.tail hne)
    -- what the package leaves when it is imported
    have hbehind {package : LoadedModule} {loaded : ModuleCache} (hne : outer ≠ [])
        (hp : cache.loadModule tree root (importWithin tree root depth) outer =
          (.ok package, loaded)) : Sound tree root loaded ∧
            Imports tree root cache.loadedNames (packageOf outer) (.ok ()) loaded.loadedNames := by
      have hpackage := hup hne
      have hsound := hnext hne
      rw [hp] at hpackage hsound
      rw [hof hne]
      exact ⟨hsound, (hpackage (by simp)).imports⟩
    have hunfound {loaded : ModuleCache} (hsound : Sound tree root loaded)
        (hno : ¬ loaded.HasPath outer) (hpath : tree.HasPath root loaded.loadedNames outer) :
        tree.namedOrigin? root (name :: outer) = none :=
      absurd ((hsound.hasPath_iff hn.tail).mpr hpath) hno
    have hloading := loading cache tree root (importWithin tree root depth) name outer
    generalize cache.loadModule tree root _ (name :: outer) = result at hloading hdeep ⊢
    cases hloading with
    | present hm =>
      have hk : name :: outer ∈ cache.loadedNames :=
        (mem_loadedNames_iff hn).mpr (by simp [Table.has_eq_isSome, hm])
      exact fun rest ending after hrest => .present hn hk hrest
    | outermost hnew ho =>
      subst ho
      exact h.loadFrom hc hn (mt And.right hnew) .done hnew rfl hdeep
    | package hnew hne hp =>
      have hpackage := hup hne
      rw [hp] at hpackage
      have himports := (hpackage hdeep).imports
      rw [← hof hne] at himports
      exact fun rest => .package hn (mt And.right hnew) himports
    | @meanwhile package m loaded hnew hne hp hm =>
      obtain ⟨-, hpackage⟩ := hbehind hne hp
      have hk : name :: outer ∈ loaded.loadedNames :=
        (mem_loadedNames_iff hn).mpr (by simp [Table.has_eq_isSome, hm])
      exact fun rest ending after hrest => .meanwhile hn (mt And.right hnew) hpackage hk hrest
    | @notPackage package loaded place hnew hne hp hfresh hs =>
      obtain ⟨hsound, hpackage⟩ := hbehind hne hp
      have hstored : loaded.get? (dottedName outer) = some package := by
        have hm := get?_loadModule (m := package) (hn.tail hne) (congrArg Prod.fst hp)
        rwa [hp] at hm
      have hno : ¬ loaded.HasPath outer := by
        obtain ⟨first, more, rfl⟩ := List.exists_cons_of_ne_nil hne
        simp [ModuleCache.HasPath, originOf?, hstored, hs]
      exact fun rest => .unfound hn (mt And.right hnew) hpackage (mt And.right hfresh)
        (hunfound hsound hno)
    | @lost package loaded fault hnew hne hp hfresh hd =>
      obtain ⟨hsound, hpackage⟩ := hbehind hne hp
      have hno : ¬ loaded.HasPath outer := by
        rw [← exists_directoryOf_iff loaded tree root]
        simp [hd]
      have himports (rest : List (List String)) : Imports tree root cache.loadedNames
          ((name :: outer) :: rest) (.error none) loaded.loadedNames :=
        .unfound hn (mt And.right hnew) hpackage (mt And.right hfresh) (hunfound hsound hno)
      obtain ⟨parent, rfl | rfl⟩ := fault_of_directoryOf hd
      · exact himports
      · exact himports
    | searched hnew hne hp hfresh hd =>
      obtain ⟨hsound, hpackage⟩ := hbehind hne hp
      obtain ⟨rfl, rfl⟩ := hsound.directoryOf_eq hn.tail hd
      exact h.loadFrom hsound hn (mt And.right hnew) hpackage hfresh hd hdeep

/-- Imports of a depth do as they should, if imports of a smaller one do. -/
theorem succ (h : IsFollowed tree root depth) : IsFollowed tree root (depth + 1) := by
  intro cache name hc hdeep
  rcases importWithin_cases tree root depth name with ⟨hbad, he⟩ | ⟨hn, he⟩
  · rw [he]
    exact fun rest => .malformed hbad
  · rw [he] at hdeep ⊢
    exact h.loadModule hc hn hdeep

end IsFollowed

theorem isFollowed (tree : Tree) (root : Location) (depth : Nat) : IsFollowed tree root depth := by
  induction depth with
  | zero => exact fun _ _ _ hdeep => absurd rfl hdeep
  | succ depth ih => exact ih.succ

/-- What an import comes to. -/
theorem ModuleCache.Sound.imports (hc : Sound tree root cache) (name : String) :
    Imports tree root cache.loadedNames [componentsOf name]
      (endingOf (cache.importNamed tree root name).1)
      (cache.importNamed tree root name).2.loadedNames :=
  (isFollowed tree root tree.importDepth cache name hc
    (cache.importNamed_ne_nestedTooDeep tree root name)).imports

end SymbolExport
