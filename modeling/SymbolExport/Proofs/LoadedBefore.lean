import SymbolExport.Proofs.Requirement

/-!
How much an import depends on what is loaded before it. Modules that can be imported make no
difference, so imports that start from two states end alike if the states differ in such modules
alone.
-/
namespace SymbolExport

variable {tree : Tree} {root : Location} {top : List String}
  {known known' middle middle' after after' : Set (List String)} {goals rest : List (List String)}
  {ending ending' : Except (Option Raised) Unit} {name : String} {outer reversed : List String}

/-- Of what a module needs, the same modules are loaded in two states, but for those that can be
imported. -/
def Tree.IsAlike (tree : Tree) (root : Location) (top : List String)
    (known known' : Set (List String)) : Prop :=
  ∀ reversed, tree.Needs root top reversed → ¬ tree.IsImportable root reversed →
    (reversed ∈ known ↔ reversed ∈ known')

namespace Tree.IsAlike

theorem symm (h : tree.IsAlike root top known known') : tree.IsAlike root top known' known :=
  fun reversed hn hi => (h reversed hn hi).symm

theorem trans (h : tree.IsAlike root top known middle) (h' : tree.IsAlike root top middle after) :
    tree.IsAlike root top known after :=
  fun reversed hn hi => (h reversed hn hi).trans (h' reversed hn hi)

theorem insert (h : tree.IsAlike root top known known') (added : List String) :
    tree.IsAlike root top (insert added known) (insert added known') :=
  fun reversed hn hi => or_congr_right (h reversed hn hi)

theorem diff (h : tree.IsAlike root top known middle) (dropped : Set (List String)) :
    tree.IsAlike root top (known \ dropped) (middle \ dropped) :=
  fun reversed hn hi => and_congr_left' (h reversed hn hi)

/-- Importing what can be imported makes no difference. -/
theorem of_imports (h : Imports tree root known goals ending after)
    (hi : ∀ goal ∈ goals, tree.IsImportable root goal) : tree.IsAlike root top known after := by
  intro reversed _ hno
  refine ⟨fun hm => h.subset hm, fun hm => (h.needs hm).resolve_right ?_⟩
  rintro ⟨goal, hg, hn⟩
  exact hno ((hi goal hg).of_needs hn)

/-- Whether a package can be searched is the same. -/
theorem hasPath_iff (h : tree.IsAlike root top known known')
    (hk : tree.KeepsPackages root known) (hk' : tree.KeepsPackages root known')
    (hn : outer ≠ [] → IsModuleName outer) (hneeds : outer ≠ [] → tree.Needs root top outer)
    (hm : outer ≠ [] → tree.IsImportable root outer → (outer ∈ known ↔ outer ∈ known')) :
    tree.HasPath root known outer ↔ tree.HasPath root known' outer := by
  induction outer with
  | nil => exact Iff.rfl
  | cons name outer ih =>
    have hne := List.cons_ne_nil name outer
    have hmem : name :: outer ∈ known ↔ name :: outer ∈ known' := by
      by_cases hi : tree.IsImportable root (name :: outer)
      · exact hm hne hi
      · exact h _ (hneeds hne) hi
    rw [Tree.HasPath, Tree.HasPath, hmem]
    refine and_congr_right fun hin => ?_
    split
    · exact Iff.rfl
    · rename_i directory hs
      by_cases hfile : ∃ place, tree.namedOrigin? root outer = some (.file place)
      · obtain ⟨place, hplace⟩ := hfile
        exact iff_of_false (fun hp => hp.ne_file place hplace) (fun hp => hp.ne_file place hplace)
      · refine ih (hn hne).tail (fun hne' => (hneeds hne).tail (.package hne')) fun hne' hi => ?_
        have hself : tree.IsImportable root (name :: outer) :=
          Tree.isImportable_of_bareDirectory (hn hne) hs hi fun place hp => hfile ⟨place, hp⟩
        exact iff_of_true (hk name outer (hmem.mpr hin) hne' hself)
          (hk' name outer hin hne' hself)
    · exact Iff.rfl

end Tree.IsAlike

theorem needs_packageOf (hself : tree.Needs root top (name :: outer)) :
    ∀ goal ∈ packageOf outer, tree.Needs root top goal := by
  intro goal hg
  obtain ⟨rfl, hne⟩ := mem_packageOf_iff.mp hg
  exact hself.tail (.package hne)

theorem needs_imports {origin : ModuleOrigin} (hself : tree.Needs root top reversed)
    (hs : tree.namedOrigin? root reversed = some origin) :
    ∀ goal ∈ (origin.body tree).imports.map componentsOf, tree.Needs root top goal := by
  intro goal hg
  obtain ⟨imported, himported, rfl⟩ := List.mem_map.mp hg
  exact hself.tail (.imported hs himported)

namespace Imports

theorem ne_error_of_isImportable {fault : Option Raised}
    (h : Imports tree root known [reversed] ending after) (hi : tree.IsImportable root reversed)
    (hk : tree.KeepsPackages root known) : ending ≠ .error fault := by
  intro he
  have hok := (h.keepsPackages hk).2 (by simpa using hi)
  rw [he] at hok
  cases hok

/-- Behind a goal that can be imported, the other goals are imported from a state that is alike. -/
theorem rest_of_isImportable (h : Imports tree root known (reversed :: rest) ending after)
    (hi : tree.IsImportable root reversed) (hk : tree.KeepsPackages root known) :
    ∃ middle, tree.KeepsPackages root middle ∧ tree.IsAlike root top known middle ∧
      Imports tree root middle rest ending after := by
  have hok {middle} (hone : Imports tree root known [reversed] (.ok ()) middle)
      (hrest : Imports tree root middle rest ending after) :
      ∃ middle, tree.KeepsPackages root middle ∧ tree.IsAlike root top known middle ∧
        Imports tree root middle rest ending after :=
    ⟨middle, (hone.keepsPackages hk).1, .of_imports hone (by simpa using hi), hrest⟩
  cases h with
  | malformed hbad => exact absurd hi.isLoadable.isModuleName hbad
  | present hn hm hrest => exact hok (.present hn hm .done) hrest
  | package hn hnew hpackage =>
    exact absurd rfl (ne_error_of_isImportable (.package hn hnew hpackage) hi hk)
  | meanwhile hn hnew hpackage hm hrest =>
    exact hok (.meanwhile hn hnew hpackage hm .done) hrest
  | unfound hn hnew hpackage hfresh hs =>
    exact absurd rfl (ne_error_of_isImportable (.unfound hn hnew hpackage hfresh hs) hi hk)
  | fails hn hnew hpackage hfresh hpath hs hbody hend =>
    exact absurd rfl
      (ne_error_of_isImportable (.fails hn hnew hpackage hfresh hpath hs hbody hend) hi hk)
  | loads hn hnew hpackage hfresh hpath hs hbody hend hrest =>
    exact hok (.loads hn hnew hpackage hfresh hpath hs hbody hend .done) hrest

/-- A package that is loaded from two states that are alike can be searched in both or in none. -/
theorem hasPath_iff_of_package (hself : tree.Needs root top (name :: outer))
    (hn : IsModuleName (name :: outer))
    (h : Imports tree root known (packageOf outer) (.ok ()) middle)
    (h' : Imports tree root known' (packageOf outer) (.ok ()) middle')
    (hk : tree.KeepsPackages root known) (hk' : tree.KeepsPackages root known')
    (halike : tree.IsAlike root top middle middle') :
    tree.HasPath root middle outer ↔ tree.HasPath root middle' outer :=
  halike.hasPath_iff (h.keepsPackages hk).1 (h'.keepsPackages hk').1 hn.tail
    (fun hne => hself.tail (.package hne))
    fun hne _ => iff_of_true (h.mem_of_package hne) (h'.mem_of_package hne)

/-- A goal that is found, and is loaded neither before nor with its package, is evaluated. -/
theorem exists_evaluation {origin : ModuleOrigin}
    (h : Imports tree root known ((name :: outer) :: rest) ending after)
    (hn : IsModuleName (name :: outer)) (hnew : name :: outer ∉ known)
    (hs : tree.namedOrigin? root (name :: outer) = some origin)
    (hup : ∀ {ended middle}, Imports tree root known (packageOf outer) ended middle →
      ended = .ok () ∧ name :: outer ∉ middle ∧ tree.HasPath root middle outer) :
    ∃ middle ended during, Imports tree root known (packageOf outer) (.ok ()) middle ∧
      Imports tree root (insert (name :: outer) middle)
        ((origin.body tree).imports.map componentsOf) ended during ∧
      ((∃ fault, (origin.body tree).ending ended = .error fault ∧ ending = .error fault ∧
          after = during \ {name :: outer}) ∨
        (origin.body tree).ending ended = .ok () ∧ Imports tree root during rest ending after) := by
  cases h with
  | malformed hbad => exact absurd hn hbad
  | present _ hm => exact absurd hm hnew
  | package _ _ hp => cases (hup hp).1
  | meanwhile _ _ hp hm => exact absurd hm (hup hp).2.1
  | unfound _ _ hp _ hnone => cases hs.symm.trans (hnone (hup hp).2.2)
  | fails _ _ hp _ _ hs' hbody hend =>
    obtain rfl := Option.some.inj (hs.symm.trans hs')
    exact ⟨_, _, _, hp, hbody, Or.inl ⟨_, hend, rfl, rfl⟩⟩
  | loads _ _ hp _ _ hs' hbody hend hrest =>
    obtain rfl := Option.some.inj (hs.symm.trans hs')
    exact ⟨_, _, _, hp, hbody, Or.inr ⟨hend, hrest⟩⟩

/-- Imports from two states that are alike end alike, in states that are alike. -/
theorem isAlike (h : Imports tree root known goals ending after)
    (h' : Imports tree root known' goals ending' after')
    (hneeds : ∀ goal ∈ goals, tree.Needs root top goal) (hk : tree.KeepsPackages root known)
    (hk' : tree.KeepsPackages root known') (halike : tree.IsAlike root top known known') :
    ending = ending' ∧ tree.IsAlike root top after after' := by
  induction h generalizing known' ending' after' with
  | done =>
    cases h'
    exact ⟨rfl, halike⟩
  | malformed hbad =>
    cases h' with
    | malformed => exact ⟨rfl, halike⟩
    | present hn | package hn | meanwhile hn | unfound hn | fails hn | loads hn =>
      exact absurd hn hbad
  | @present known after reversed rest ending hn hm hrest ih =>
    obtain ⟨hself, hothers⟩ := List.forall_mem_cons.mp hneeds
    by_cases hi : tree.IsImportable root reversed
    · obtain ⟨middle', hkeeps, hsame, hrest'⟩ := h'.rest_of_isImportable hi hk'
      exact ih hrest' hothers hk hkeeps (halike.trans hsame)
    · have hm' := (halike reversed hself hi).mp hm
      cases h' with
      | malformed hbad => exact absurd hn hbad
      | present _ _ hrest' => exact ih hrest' hothers hk hk' halike
      | package _ hnew | meanwhile _ hnew | unfound _ hnew | fails _ hnew | loads _ hnew =>
        exact absurd hm' hnew
  | @package known after name outer rest fault hn hnew hpackage ih =>
    obtain ⟨hself, hothers⟩ := List.forall_mem_cons.mp hneeds
    have hi : ¬ tree.IsImportable root (name :: outer) := fun hi =>
      ne_error_of_isImportable (.package hn hnew hpackage) hi hk rfl
    have hup {ended middle'} (hp : Imports tree root known' (packageOf outer) ended middle') :=
      ih hp (needs_packageOf hself) hk hk' halike
    cases h' with
    | malformed hbad => exact absurd hn hbad
    | present _ hm => exact absurd ((halike _ hself hi).mpr hm) hnew
    | package _ _ hp => exact hup hp
    | meanwhile _ _ hp | unfound _ _ hp | fails _ _ hp | loads _ _ hp => cases (hup hp).1
  | @meanwhile known middle after name outer rest ending hn hnew hpackage hm hrest ihpackage
      ihrest =>
    obtain ⟨hself, hothers⟩ := List.forall_mem_cons.mp hneeds
    obtain ⟨hkm, -⟩ := hpackage.keepsPackages hk
    by_cases hi : tree.IsImportable root (name :: outer)
    · obtain ⟨middle', hkeeps, hsame, hrest'⟩ := h'.rest_of_isImportable hi hk'
      have hmiddle : tree.IsAlike root top known middle :=
        .of_imports hpackage fun goal => hi.of_mem_packageOf
      exact ihrest hrest' hothers hkm hkeeps (hmiddle.symm.trans (halike.trans hsame))
    · have hup {ended middle'} (hp : Imports tree root known' (packageOf outer) ended middle') :=
        ihpackage hp (needs_packageOf hself) hk hk' halike
      cases h' with
      | malformed hbad => exact absurd hn hbad
      | present _ hk => exact absurd ((halike _ hself hi).mpr hk) hnew
      | package _ _ hp => cases (hup hp).1
      | meanwhile _ _ hp _ hrest' =>
        exact ihrest hrest' hothers hkm (hp.keepsPackages hk').1 (hup hp).2
      | unfound _ _ hp hfresh | fails _ _ hp hfresh | loads _ _ hp hfresh =>
        exact absurd (((hup hp).2 _ hself hi).mp hm) hfresh
  | @unfound known middle name outer rest hn hnew hpackage hfresh hs ih =>
    obtain ⟨hself, hothers⟩ := List.forall_mem_cons.mp hneeds
    have hi : ¬ tree.IsImportable root (name :: outer) := fun hi =>
      ne_error_of_isImportable (.unfound hn hnew hpackage hfresh hs) hi hk rfl
    have hup {ended middle'} (hp : Imports tree root known' (packageOf outer) ended middle') :=
      ih hp (needs_packageOf hself) hk hk' halike
    have hlost {middle' origin} (hp : Imports tree root known' (packageOf outer) (.ok ()) middle')
        (hpath : tree.HasPath root middle' outer) :
        tree.namedOrigin? root (name :: outer) ≠ some origin := by
      rw [hs ((hasPath_iff_of_package hself hn hpackage hp hk hk' (hup hp).2).mpr hpath)]
      nofun
    cases h' with
    | malformed hbad => exact absurd hn hbad
    | present _ hm => exact absurd ((halike _ hself hi).mpr hm) hnew
    | package _ _ hp => cases (hup hp).1
    | meanwhile _ _ hp hm => exact absurd (((hup hp).2 _ hself hi).mpr hm) hfresh
    | unfound _ _ hp => exact ⟨rfl, (hup hp).2⟩
    | fails _ _ hp _ hpath hs' | loads _ _ hp _ hpath hs' => exact absurd hs' (hlost hp hpath)
  | @fails known middle during name outer rest origin ended fault hn hnew hpackage hfresh hpath hs
      hbody hend ihpackage ihbody =>
    obtain ⟨hself, hothers⟩ := List.forall_mem_cons.mp hneeds
    have hi : ¬ tree.IsImportable root (name :: outer) := fun hi =>
      ne_error_of_isImportable (.fails hn hnew hpackage hfresh hpath hs hbody hend) hi hk rfl
    have hup {ended middle'} (hp : Imports tree root known' (packageOf outer) ended middle') :=
      ihpackage hp (needs_packageOf hself) hk hk' halike
    have hfound {ended middle'} (hp : Imports tree root known' (packageOf outer) ended middle') :
        ended = .ok () ∧ name :: outer ∉ middle' ∧ tree.HasPath root middle' outer := by
      obtain ⟨rfl, hsame⟩ := hup hp
      exact ⟨rfl, fun hm => hfresh ((hsame _ hself hi).mpr hm),
        (hasPath_iff_of_package hself hn hpackage hp hk hk' hsame).mp hpath⟩
    obtain ⟨middle', ended', during', hp, hbody', hlast⟩ :=
      h'.exists_evaluation hn (fun hm => hnew ((halike _ hself hi).mpr hm)) hs hfound
    obtain ⟨rfl, hduring⟩ := ihbody hbody' (needs_imports hself hs)
      ((hpackage.keepsPackages hk).1.insert hpackage.mem_of_package name)
      ((hp.keepsPackages hk').1.insert hp.mem_of_package name) ((hup hp).2.insert _)
    rcases hlast with ⟨fault', hend', rfl, rfl⟩ | ⟨hend', -⟩
    · exact ⟨hend.symm.trans hend', hduring.diff _⟩
    · cases hend.symm.trans hend'
  | @loads known middle during after name outer rest origin ended ending hn hnew hpackage hfresh
      hpath hs hbody hend hrest ihpackage ihbody ihrest =>
    obtain ⟨hself, hothers⟩ := List.forall_mem_cons.mp hneeds
    have hkeeps := (hpackage.keepsPackages hk).1.insert hpackage.mem_of_package name
    have hkd := (hbody.keepsPackages hkeeps).1
    by_cases hi : tree.IsImportable root (name :: outer)
    · obtain ⟨middle', hkm', hsame, hrest'⟩ := h'.rest_of_isImportable hi hk'
      have hduring : tree.IsAlike root top known during :=
        .of_imports (.loads hn hnew hpackage hfresh hpath hs hbody hend .done) (by simpa using hi)
      exact ihrest hrest' hothers hkd hkm' (hduring.symm.trans (halike.trans hsame))
    · have hup {ended middle'} (hp : Imports tree root known' (packageOf outer) ended middle') :=
        ihpackage hp (needs_packageOf hself) hk hk' halike
      have hfound {ended middle'} (hp : Imports tree root known' (packageOf outer) ended middle') :
          ended = .ok () ∧ name :: outer ∉ middle' ∧ tree.HasPath root middle' outer := by
        obtain ⟨rfl, hsame⟩ := hup hp
        exact ⟨rfl, fun hm => hfresh ((hsame _ hself hi).mpr hm),
          (hasPath_iff_of_package hself hn hpackage hp hk hk' hsame).mp hpath⟩
      obtain ⟨middle', ended', during', hp, hbody', hlast⟩ :=
        h'.exists_evaluation hn (fun hm => hnew ((halike _ hself hi).mpr hm)) hs hfound
      have hkeeps' := (hp.keepsPackages hk').1.insert hp.mem_of_package name
      obtain ⟨rfl, hduring⟩ :=
        ihbody hbody' (needs_imports hself hs) hkeeps hkeeps' ((hup hp).2.insert _)
      rcases hlast with ⟨fault', hend', -, -⟩ | ⟨hend', hrest'⟩
      · cases hend.symm.trans hend'
      · exact ihrest hrest' hothers hkd (hbody'.keepsPackages hkeeps').1 hduring

end Imports

end SymbolExport
