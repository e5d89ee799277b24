import SymbolExport.Proofs.Evaluation

/-!
What a module requires of others: the package that it is in, and what it imports itself. A module
can be imported if all that it needs is found and raises nothing. Then it is imported whatever is
loaded; and what cannot be imported is loaded only where something of that kind was left before.
-/
namespace SymbolExport

/-- What has to be loaded before a module is: its package and the modules that it imports. -/
inductive Tree.Requires (tree : Tree) (root : Location) : List String → List String → Prop
  | package {name outer} (hne : outer ≠ []) : Requires tree root (name :: outer) outer
  | imported {reversed origin imported} (hs : tree.namedOrigin? root reversed = some origin)
      (hm : imported ∈ (origin.body tree).imports) :
      Requires tree root reversed (componentsOf imported)

/-- What a module requires at last, itself among it. -/
def Tree.Needs (tree : Tree) (root : Location) : List String → List String → Prop :=
  Relation.ReflTransGen (tree.Requires root)

/-- Nothing but what it requires keeps a module from being loaded. -/
structure Tree.IsLoadable (tree : Tree) (root : Location) (reversed : List String) : Prop where
  isModuleName : IsModuleName reversed
  found : ∃ origin, tree.namedOrigin? root reversed = some origin ∧
    (origin.body tree).raised? = none
  package : ∀ place, tree.namedOrigin? root reversed.tail ≠ some (.file place)

/-- Everything that a module needs can be loaded. -/
def Tree.IsImportable (tree : Tree) (root : Location) (reversed : List String) : Prop :=
  ∀ other, tree.Needs root reversed other → tree.IsLoadable root other

variable {tree : Tree} {root : Location} {known after middle : Set (List String)}
  {goals : List (List String)} {ending : Except (Option Raised) Unit} {name : String}
  {outer reversed other : List String} {origin : ModuleOrigin}

theorem mem_packageOf_iff : reversed ∈ packageOf outer ↔ reversed = outer ∧ outer ≠ [] := by
  unfold packageOf
  split
  · simp_all
  · simp_all

namespace Tree.IsImportable

theorem isLoadable (h : tree.IsImportable root reversed) : tree.IsLoadable root reversed :=
  h reversed .refl

theorem of_requires (h : tree.IsImportable root reversed)
    (hr : tree.Requires root reversed other) : tree.IsImportable root other :=
  fun inner hn => h inner (.head hr hn)

theorem of_needs (h : tree.IsImportable root reversed) (hn : tree.Needs root reversed other) :
    tree.IsImportable root other :=
  fun inner hi => h inner (hn.trans hi)

theorem of_mem_packageOf (h : tree.IsImportable root (name :: outer))
    (hm : reversed ∈ packageOf outer) : tree.IsImportable root reversed := by
  obtain ⟨rfl, hne⟩ := mem_packageOf_iff.mp hm
  exact h.of_requires (.package hne)

theorem of_mem_imports (h : tree.IsImportable root reversed)
    (hs : tree.namedOrigin? root reversed = some origin)
    (hm : other ∈ (origin.body tree).imports.map componentsOf) :
    tree.IsImportable root other := by
  obtain ⟨imported, himported, rfl⟩ := List.mem_map.mp hm
  exact h.of_requires (.imported hs himported)

end Tree.IsImportable

/-- A set of modules that has with each of them what it requires can be imported, if none of them
is kept from it otherwise. -/
theorem Tree.isImportable_of_closed {closed : Set (List String)}
    (h : ∀ reversed ∈ closed, tree.IsLoadable root reversed ∧
      ∀ other, tree.Requires root reversed other → other ∈ closed) (hm : reversed ∈ closed) :
    tree.IsImportable root reversed := by
  intro other hn
  have hclosed : other ∈ closed := by
    induction hn with
    | refl => exact hm
    | tail _ hr ih => exact (h _ ih).2 _ hr
  exact (h other hclosed).1

theorem needs_of_package (h : ∃ goal ∈ packageOf outer, tree.Needs root goal reversed) :
    tree.Needs root (name :: outer) reversed := by
  obtain ⟨goal, hg, hn⟩ := h
  obtain ⟨rfl, hne⟩ := mem_packageOf_iff.mp hg
  exact .head (.package hne) hn

theorem needs_of_imports (hs : tree.namedOrigin? root other = some origin)
    (h : ∃ goal ∈ (origin.body tree).imports.map componentsOf, tree.Needs root goal reversed) :
    tree.Needs root other reversed := by
  obtain ⟨goal, hg, hn⟩ := h
  obtain ⟨imported, himported, rfl⟩ := List.mem_map.mp hg
  exact .head (.imported hs himported) hn

/-- The submodules of a file are not searched. -/
theorem Tree.HasPath.ne_file (h : tree.HasPath root known outer) (place : Location) :
    tree.namedOrigin? root outer ≠ some (.file place) := by
  intro hs
  cases outer with
  | nil => cases hs
  | cons name outer => simp [Tree.HasPath, hs] at h

theorem ModuleBody.ending_eq_ok_iff {body : ModuleBody} :
    body.ending ending = .ok () ↔ ending = .ok () ∧ body.raised? = none := by
  unfold ModuleBody.ending
  split
  · simp
  · split <;> simp_all

namespace Imports

/-- Modules that are loaded stay loaded. -/
theorem subset (h : Imports tree root known goals ending after) : known ⊆ after := by
  induction h with
  | done | malformed => exact Set.Subset.rfl
  | present _ _ _ ih => exact ih
  | package _ _ _ ih => exact ih
  | meanwhile _ _ _ _ _ ihpackage ihrest => exact ihpackage.trans ihrest
  | unfound _ _ _ _ _ ih => exact ih
  | fails _ hnew _ _ _ _ _ _ ihpackage ihbody =>
    intro other hm
    exact ⟨ihbody (Set.mem_insert_of_mem _ (ihpackage hm)), fun he => hnew (he ▸ hm)⟩
  | loads _ _ _ _ _ _ _ _ _ ihpackage ihbody ihrest =>
    exact (ihpackage.trans ((Set.subset_insert _ _).trans ihbody)).trans ihrest

/-- Imports that end well have loaded their goals. -/
theorem mem_of_ok (h : Imports tree root known goals ending after) (hok : ending = .ok ())
    {goal : List String} (hm : goal ∈ goals) : goal ∈ after := by
  induction h with
  | done => cases hm
  | malformed | package | unfound | fails => cases hok
  | present _ hk hrest ih =>
    rcases List.mem_cons.mp hm with rfl | hm
    · exact hrest.subset hk
    · exact ih hok hm
  | meanwhile _ _ _ hk hrest _ ih =>
    rcases List.mem_cons.mp hm with rfl | hm
    · exact hrest.subset hk
    · exact ih hok hm
  | loads _ _ _ _ _ _ hbody _ hrest _ _ ih =>
    rcases List.mem_cons.mp hm with rfl | hm
    · exact hrest.subset (hbody.subset (Set.mem_insert _ _))
    · exact ih hok hm

theorem mem_of_package (h : Imports tree root known (packageOf outer) (.ok ()) after)
    (hne : outer ≠ []) : outer ∈ after :=
  h.mem_of_ok rfl (mem_packageOf_iff.mpr ⟨rfl, hne⟩)

/-- Imports load only what their goals need. -/
theorem needs (h : Imports tree root known goals ending after) (hm : reversed ∈ after) :
    reversed ∈ known ∨ ∃ goal ∈ goals, tree.Needs root goal reversed := by
  have here {goal : List String} {rest : List (List String)} (hn : tree.Needs root goal reversed) :
      ∃ g ∈ goal :: rest, tree.Needs root g reversed :=
    ⟨goal, List.mem_cons_self, hn⟩
  induction h with
  | done | malformed => exact Or.inl hm
  | present _ _ _ ih =>
    exact (ih hm).imp_right fun ⟨goal, hg, hn⟩ => ⟨goal, List.mem_cons_of_mem _ hg, hn⟩
  | package _ _ _ ih => exact (ih hm).imp_right (here ∘ needs_of_package)
  | meanwhile _ _ _ _ _ ihpackage ihrest =>
    rcases ihrest hm with hm | ⟨goal, hg, hn⟩
    · exact (ihpackage hm).imp_right (here ∘ needs_of_package)
    · exact Or.inr ⟨goal, List.mem_cons_of_mem _ hg, hn⟩
  | unfound _ _ _ _ _ ih => exact (ih hm).imp_right (here ∘ needs_of_package)
  | fails _ _ _ _ _ hs _ _ ihpackage ihbody =>
    rcases ihbody hm.1 with hbegun | hbody
    · rcases Set.mem_insert_iff.mp hbegun with rfl | hmiddle
      · exact absurd rfl hm.2
      · exact (ihpackage hmiddle).imp_right (here ∘ needs_of_package)
    · exact Or.inr (here (needs_of_imports hs hbody))
  | loads _ _ _ _ _ hs _ _ _ ihpackage ihbody ihrest =>
    rcases ihrest hm with hduring | ⟨goal, hg, hn⟩
    · rcases ihbody hduring with hbegun | hbody
      · rcases Set.mem_insert_iff.mp hbegun with rfl | hmiddle
        · exact Or.inr (here .refl)
        · exact (ihpackage hmiddle).imp_right (here ∘ needs_of_package)
      · exact Or.inr (here (needs_of_imports hs hbody))
    · exact Or.inr ⟨goal, List.mem_cons_of_mem _ hg, hn⟩

/-- What is newly loaded by imports that end well is loadable, and so is loaded what it requires. -/
theorem closed_of_ok (h : Imports tree root known goals ending after) (hok : ending = .ok ())
    (hm : reversed ∈ after) (hnew : reversed ∉ known) :
    tree.IsLoadable root reversed ∧ ∀ other, tree.Requires root reversed other → other ∈ after := by
  induction h with
  | done => exact absurd hm hnew
  | malformed | package | unfound | fails => cases hok
  | present _ _ _ ih => exact ih hok hm hnew
  | @meanwhile _ middle _ _ _ _ _ _ _ _ _ hrest ihpackage ihrest =>
    by_cases hmiddle : reversed ∈ middle
    · obtain ⟨hloadable, hrequired⟩ := ihpackage rfl hmiddle hnew
      exact ⟨hloadable, fun other hr => hrest.subset (hrequired other hr)⟩
    · exact ihrest hok hm hmiddle
  | @loads _ middle during _ name outer rest origin _ _ hn _ hpackage _ hpath hs hbody hend hrest
      ihpackage ihbody ihrest =>
    obtain ⟨rfl, hraised⟩ := ModuleBody.ending_eq_ok_iff.mp hend
    by_cases hduring : reversed ∈ during
    · by_cases hmiddle : reversed ∈ middle
      · obtain ⟨hloadable, hrequired⟩ := ihpackage rfl hmiddle hnew
        exact ⟨hloadable, fun other hr =>
          hrest.subset (hbody.subset (Set.mem_insert_of_mem _ (hrequired other hr)))⟩
      · by_cases hself : reversed = name :: outer
        · subst hself
          refine ⟨⟨hn, ⟨origin, hs, hraised⟩, hpath.ne_file⟩, fun other hr => hrest.subset ?_⟩
          cases hr with
          | package hne =>
            exact hbody.subset (Set.mem_insert_of_mem _
              (hpackage.mem_of_package hne))
          | imported hs' himported =>
            obtain rfl := Option.some.inj (hs.symm.trans hs')
            exact hbody.mem_of_ok rfl (List.mem_map_of_mem himported)
        · obtain ⟨hloadable, hrequired⟩ := ihbody rfl hduring (by simp [hself, hmiddle])
          exact ⟨hloadable, fun other hr => hrest.subset (hrequired other hr)⟩
    · exact ihrest hok hm hduring

end Imports

/-- Packages are loaded of the loaded modules that can be imported. -/
def Tree.KeepsPackages (tree : Tree) (root : Location) (known : Set (List String)) : Prop :=
  ∀ name outer, name :: outer ∈ known → outer ≠ [] → tree.IsImportable root (name :: outer) →
    outer ∈ known

namespace Tree.KeepsPackages

theorem insert (h : tree.KeepsPackages root known) (hm : outer ≠ [] → outer ∈ known)
    (name : String) :
    tree.KeepsPackages root (insert (name :: outer) known) := by
  intro name' outer' hm' hne hi
  apply Set.mem_insert_of_mem
  rcases Set.mem_insert_iff.mp hm' with he | hk
  · obtain ⟨rfl, rfl⟩ := List.cons.inj he
    exact hm hne
  · exact h name' outer' hk hne hi

/-- Nothing that can be imported is in a package that cannot. -/
theorem diff (h : tree.KeepsPackages root known) (hi : ¬ tree.IsImportable root reversed) :
    tree.KeepsPackages root (known \ {reversed}) := by
  intro name outer hm hne himportable
  refine ⟨h name outer hm.1 hne himportable, ?_⟩
  rintro rfl
  exact hi (himportable.of_requires (.package hne))

/-- The submodules of a package can be searched if the package and one of them can be imported. -/
theorem hasPath (h : tree.KeepsPackages root known) (hi : tree.IsImportable root (name :: outer))
    (hm : outer ≠ [] → outer ∈ known) : tree.HasPath root known outer := by
  induction outer generalizing name with
  | nil => trivial
  | cons next more ih =>
    have hnext := hi.of_requires (.package (List.cons_ne_nil next more))
    have hk := hm (List.cons_ne_nil next more)
    obtain ⟨origin, hs, -⟩ := hnext.isLoadable.found
    refine ⟨hk, ?_⟩
    rw [hs]
    cases origin with
    | file place => exact hi.isLoadable.package place hs
    | package place => trivial
    | bareDirectory place => exact ih hnext fun hne => h next more hk hne hnext

end Tree.KeepsPackages

/-- A bare directory requires nothing but its package. -/
theorem Tree.isImportable_of_bareDirectory {directory : Location} (hn : IsModuleName (name :: outer))
    (hs : tree.namedOrigin? root (name :: outer) = some (.bareDirectory directory))
    (hi : tree.IsImportable root outer)
    (hfile : ∀ place, tree.namedOrigin? root outer ≠ some (.file place)) :
    tree.IsImportable root (name :: outer) := by
  intro other hneeds
  rcases hneeds.cases_head with rfl | ⟨next, hr, hneeds⟩
  · exact ⟨hn, ⟨_, hs, rfl⟩, hfile⟩
  · cases hr with
    | package => exact hi other hneeds
    | imported hs' hm =>
      obtain rfl := Option.some.inj (hs.symm.trans hs')
      cases hm

namespace Imports

/-- What can be imported is imported, whatever is loaded, and leaves no such module without its
package. -/
theorem keepsPackages (h : Imports tree root known goals ending after)
    (hk : tree.KeepsPackages root known) : tree.KeepsPackages root after ∧
      ((∀ goal ∈ goals, tree.IsImportable root goal) → ending = .ok ()) := by
  induction h with
  | done => exact ⟨hk, fun _ => rfl⟩
  | malformed hbad =>
    exact ⟨hk, fun hi => absurd (hi _ List.mem_cons_self).isLoadable.isModuleName hbad⟩
  | present _ _ _ ih =>
    obtain ⟨hafter, hok⟩ := ih hk
    exact ⟨hafter, fun hi => hok fun goal hg => hi goal (List.mem_cons_of_mem _ hg)⟩
  | package _ _ _ ih =>
    obtain ⟨hafter, hok⟩ := ih hk
    refine ⟨hafter, fun hi => hok fun goal hg => ?_⟩
    exact (hi _ List.mem_cons_self).of_mem_packageOf hg
  | meanwhile _ _ _ _ _ ihpackage ihrest =>
    obtain ⟨hafter, hok⟩ := ihrest (ihpackage hk).1
    exact ⟨hafter, fun hi => hok fun goal hg => hi goal (List.mem_cons_of_mem _ hg)⟩
  | unfound _ _ hpackage _ hs ih =>
    obtain ⟨hmiddle, -⟩ := ih hk
    refine ⟨hmiddle, fun hi => ?_⟩
    have himportable := hi _ List.mem_cons_self
    obtain ⟨origin, hfound, -⟩ := himportable.isLoadable.found
    have hnone := hs (hmiddle.hasPath himportable hpackage.mem_of_package)
    rw [hnone] at hfound
    cases hfound
  | @fails _ middle during name outer _ origin ended fault hn _ hpackage _ _ hs _ hend ihpackage
      ihbody =>
    obtain ⟨hmiddle, -⟩ := ihpackage hk
    obtain ⟨hduring, hok⟩ := ihbody (hmiddle.insert hpackage.mem_of_package _)
    have hno : ¬ tree.IsImportable root (name :: outer) := by
      intro hi
      obtain ⟨origin', hs', hraised⟩ := hi.isLoadable.found
      obtain rfl := Option.some.inj (hs.symm.trans hs')
      have hended := ModuleBody.ending_eq_ok_iff.mpr
        ⟨hok fun goal hg => hi.of_mem_imports hs hg, hraised⟩
      rw [hend] at hended
      cases hended
    exact ⟨hduring.diff hno, fun hi => absurd (hi _ List.mem_cons_self) hno⟩
  | loads _ _ hpackage _ _ _ _ _ _ ihpackage ihbody ihrest =>
    obtain ⟨hmiddle, -⟩ := ihpackage hk
    obtain ⟨hduring, -⟩ := ihbody (hmiddle.insert hpackage.mem_of_package _)
    obtain ⟨hafter, hok⟩ := ihrest hduring
    exact ⟨hafter, fun hi => hok fun goal hg => hi goal (List.mem_cons_of_mem _ hg)⟩

end Imports

end SymbolExport
