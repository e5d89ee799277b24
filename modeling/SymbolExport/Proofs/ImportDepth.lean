import SymbolExport.Proofs.Bodies
import SymbolExport.Proofs.ModuleCache

/-!
How deep modules are evaluated within each other. Each of them is on the way to a name that some
file imports, and is known from when its evaluation begins, so it is not evaluated once more within
itself; the names of all imports bound the depth.
-/
namespace SymbolExport

open ModuleCache

variable {tree : Tree} {root directory : Location} {cache after : ModuleCache} {depth : Nat}
  {name key : String} {outer reversed names : List String} {origin : ModuleOrigin}
  {m : LoadedModule} {body : ModuleBody}

/-- The names on the way to a module, its own one among them. -/
def namesOnWay (name : String) : List String :=
  (List.range (componentsOf name).length).map fun i => dottedName ((componentsOf name).drop i)

theorem mem_namesOnWay (hi : reversed <:+ componentsOf name) (hne : reversed ≠ []) :
    dottedName reversed ∈ namesOnWay name := by
  have hpos := List.length_pos_iff.mpr hne
  have hlength := hi.length_le
  refine List.mem_map.mpr ⟨(componentsOf name).length - reversed.length, ?_, ?_⟩
  · rw [List.mem_range]
    omega
  · rw [← List.suffix_iff_eq_drop.mp hi]

/-- The names on the ways to what files import whose modules are not loaded. -/
def Tree.pendingNames (tree : Tree) (cache : ModuleCache) : Finset String :=
  {name ∈ ((Node.importNames tree).flatMap namesOnWay).toFinset | ¬ cache.has name}

theorem Tree.card_pendingNames_lt (tree : Tree) (cache : ModuleCache) :
    (tree.pendingNames cache).card + 1 < tree.importDepth := by
  have hall : (tree.pendingNames cache).card ≤
      ((Node.importNames tree).flatMap namesOnWay).length :=
    (Finset.card_filter_le _ _).trans (List.toFinset_card_le _)
  have hlength : ((Node.importNames tree).flatMap namesOnWay).length =
      ((Node.importNames tree).flatMap componentsOf).length := by
    simp [List.length_flatMap, namesOnWay]
  rw [Tree.importDepth]
  omega

/-- Where more modules are loaded, fewer names are pending. -/
theorem Tree.card_pendingNames_le (tree : Tree) (h : ∀ key, cache.has key → after.has key) :
    (tree.pendingNames after).card ≤ (tree.pendingNames cache).card := by
  refine Finset.card_le_card fun key hk => ?_
  obtain ⟨hway, hnew⟩ := Finset.mem_filter.mp hk
  exact Finset.mem_filter.mpr ⟨hway, mt (h key) hnew⟩

/-- A name is pending no more when the evaluation of its module begins. -/
theorem Tree.card_pendingNames_insert (hn : name ∈ Node.importNames tree)
    (hi : reversed <:+ componentsOf name) (hne : reversed ≠ [])
    (hnew : ¬ cache.has (dottedName reversed)) :
    (tree.pendingNames (cache.insert (dottedName reversed) m)).card <
      (tree.pendingNames cache).card := by
  have hway : dottedName reversed ∈ ((Node.importNames tree).flatMap namesOnWay).toFinset :=
    List.mem_toFinset.mpr (List.mem_flatMap.mpr ⟨name, hn, mem_namesOnWay hi hne⟩)
  refine Finset.card_lt_card (Finset.ssubset_iff_of_subset ?_ |>.mpr ⟨dottedName reversed, ?_, ?_⟩)
  · intro key hk
    obtain ⟨hkey, hother⟩ := Finset.mem_filter.mp hk
    exact Finset.mem_filter.mpr ⟨hkey, mt (fun h => Table.has_insert.mpr (Or.inr h)) hother⟩
  · exact Finset.mem_filter.mpr ⟨hway, hnew⟩
  · intro hk
    exact (Finset.mem_filter.mp hk).2 (Table.has_insert.mpr (Or.inl rfl))

/-- Imports of a depth that is enough for what is pending. -/
def IsDeepEnough (tree : Tree) (root : Location) (depth : Nat) : Prop :=
  ∀ (cache : ModuleCache) (name : String), name ∈ Node.importNames tree →
    (tree.pendingNames cache).card < depth →
    (importWithin tree root depth cache name).1 ≠ .error .nestedTooDeep

namespace IsDeepEnough

theorem importEach (h : IsDeepEnough tree root depth)
    (hn : ∀ name ∈ names, name ∈ Node.importNames tree)
    (hc : (tree.pendingNames cache).card < depth) :
    (Importer.importEach (importWithin tree root depth) cache names).1 ≠ .error .nestedTooDeep := by
  induction names generalizing cache with
  | nil => nofun
  | cons name rest ih =>
    obtain ⟨hname, hrest⟩ := List.forall_mem_cons.mp hn
    have hfirst := h cache name hname hc
    have hgrows := (isObeyed_has tree root).importWithin depth cache name
    unfold Importer.importEach
    generalize importWithin tree root depth cache name = imported at hfirst hgrows ⊢
    obtain ⟨result, after⟩ := imported
    cases result with
    | error fault => simpa using hfirst
    | ok m => exact ih hrest ((tree.card_pendingNames_le hgrows).trans_lt hc)

theorem evaluate (h : IsDeepEnough tree root depth) (origin : ModuleOrigin)
    (hc : (tree.pendingNames cache).card < depth) :
    ((origin.body tree).evaluate (importWithin tree root depth) cache).1 ≠
      .error .nestedTooDeep := by
  have hn : ∀ name ∈ (origin.body tree).imports, name ∈ Node.importNames tree := by
    intro name hm
    rcases origin.body_mem_bodies tree with hempty | hbody
    · rw [hempty] at hm
      cases hm
    · exact List.mem_flatMap.mpr ⟨_, hbody, hm⟩
  have heach := h.importEach hn hc
  unfold ModuleBody.evaluate
  generalize Importer.importEach _ cache (origin.body tree).imports = imported at heach ⊢
  obtain ⟨result, after⟩ := imported
  cases result with
  | error fault => exact heach
  | ok =>
    dsimp only
    split <;> simp

/-- Modules are loaded if what is pending within each of them is not too deep. -/
theorem loadModule (h : IsDeepEnough tree root depth) (hn : IsModuleName reversed)
    (hc : ∀ (cache' : ModuleCache) inner (m : LoadedModule), inner <:+ reversed → inner ≠ [] →
      (∀ key, cache.has key → cache'.has key) → ¬ cache'.has (dottedName inner) →
      (tree.pendingNames (cache'.insert (dottedName inner) m)).card < depth) :
    (cache.loadModule tree root (importWithin tree root depth) reversed).1 ≠
      .error .nestedTooDeep := by
  have hload {cache' : ModuleCache} {directory : Location} {name : String} {outer : List String}
      (hs : name :: outer <:+ reversed) (hg : ∀ key, cache.has key → cache'.has key)
      (hnew : ¬ cache'.has (dottedName (name :: outer))) :
      (cache'.loadFrom tree (importWithin tree root depth) directory name outer).1 ≠
        .error .nestedTooDeep := by
    unfold loadFrom
    dsimp only
    split
    · simp
    · rename_i origin _
      have hbody := h.evaluate origin (hc cache' (name :: outer) ⟨origin, []⟩ hs
        (List.cons_ne_nil name outer) hg hnew)
      generalize ModuleBody.evaluate _ _ _ = evaluated at hbody ⊢
      obtain ⟨result, during⟩ := evaluated
      cases result with
      | error fault => simpa using hbody
      | ok => simp
  induction reversed with
  | nil => exact absurd rfl hn.ne_nil
  | cons name outer ih =>
    have hsuffix {inner : List String} (hi : inner <:+ outer) : inner <:+ name :: outer :=
      hi.trans (List.suffix_cons name outer)
    have hup (hne : outer ≠ []) := ih (hn.tail hne)
      (fun cache' inner m hi => hc cache' inner m (hsuffix hi)) fun hs => hload (hsuffix hs)
    have hgrows (hne : outer ≠ []) := (isObeyed_has tree root).loadModule
      ((isObeyed_has tree root).importWithin depth) (hn.tail hne) cache
    have hloading := loading cache tree root (importWithin tree root depth) name outer
    generalize cache.loadModule tree root _ (name :: outer) = loaded at hloading ⊢
    cases hloading with
    | present | meanwhile | notPackage => simp
    | outermost hnew ho =>
      subst ho
      exact hload List.suffix_rfl (fun _ hk => hk) hnew
    | package _ hne hp =>
      have hdeep := hup hne
      rw [hp] at hdeep
      simpa using hdeep
    | lost _ _ _ _ hd =>
      obtain ⟨parent, rfl | rfl⟩ := fault_of_directoryOf hd <;> simp
    | searched _ hne hp hfresh hd =>
      have hmore := hgrows hne
      rw [hp] at hmore
      exact hload List.suffix_rfl (fun key hk => (has_directoryOf hd key).mpr (hmore key hk))
        (mt (has_directoryOf hd _).mp hfresh)

end IsDeepEnough

/-- What is pending bounds the depth that an import of some file needs. -/
theorem isDeepEnough (tree : Tree) (root : Location) (depth : Nat) :
    IsDeepEnough tree root depth := by
  induction depth with
  | zero => exact fun _ _ _ hc => absurd hc (Nat.not_lt_zero _)
  | succ depth ih =>
    intro cache name hname hc
    rcases importWithin_cases tree root depth name with ⟨-, he⟩ | ⟨hn, he⟩
    · simp [he]
    · rw [he]
      refine ih.loadModule hn fun cache' inner m hi hne hg hnew => ?_
      have hless := Tree.card_pendingNames_insert (m := m) hname hi hne hnew
      have hfewer := tree.card_pendingNames_le hg
      omega

/-- No import is nested too deep. -/
theorem ModuleCache.importNamed_ne_nestedTooDeep (cache : ModuleCache) (tree : Tree)
    (root : Location) (name : String) :
    (cache.importNamed tree root name).1 ≠ .error .nestedTooDeep := by
  have hdepth := tree.card_pendingNames_lt
  obtain ⟨depth, hd⟩ : ∃ depth, tree.importDepth = depth + 1 := ⟨_, rfl⟩
  rw [hd] at hdepth
  rw [importNamed, hd]
  rcases importWithin_cases tree root depth name with ⟨-, he⟩ | ⟨hn, he⟩
  · simp [he]
  · rw [he]
    exact (isDeepEnough tree root depth).loadModule hn fun cache' inner m _ _ _ _ =>
      Nat.lt_of_succ_lt_succ (hdepth _)

end SymbolExport
