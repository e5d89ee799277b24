import SymbolExport.Proofs.ModuleCache

/-!
Where imports find modules. The directory in which the submodules of a package are searched depends
on the files, and on the modules that were loaded before; modules that come and go meanwhile do not
change it. So each new module stands where its name is searched, whatever has failed by then.
-/
namespace SymbolExport

open ModuleCache

/-- Where the submodules of a name are searched, while the modules of before are loaded. A package
of before stands where it was found then, but a bare directory is moved to where its name is found
now. -/
def homeOf (before : ModuleCache) (tree : Tree) (root : Location) : List String → Option Location
  | [] => some root
  | name :: outer =>
    match before.originOf? (dottedName (name :: outer)) with
    | some (.file _) => none
    | some (.package directory) => some directory
    | some (.bareDirectory directory) =>
      (homeOf before tree root outer).map fun parent =>
        match searchModule tree parent name with
        | some (.bareDirectory found) => found
        | _ => directory
    | none =>
      (homeOf before tree root outer).bind fun parent =>
        (searchModule tree parent name).bind ModuleOrigin.directory?

/-- What is found for a name where it is searched. -/
def FoundAs (before : ModuleCache) (tree : Tree) (root : Location) (key : String)
    (origin : ModuleOrigin) : Prop :=
  ∃ name outer directory, IsModuleName (name :: outer) ∧ key = dottedName (name :: outer) ∧
    homeOf before tree root outer = some directory ∧ searchModule tree directory name = some origin

/-- What a block of imports makes of the modules of before: they stay, only bare directories are
moved to their homes; and each new module is loaded once and stands where its name is searched. -/
structure Placed (before : ModuleCache) (tree : Tree) (root : Location) (cache : ModuleCache) :
    Prop where
  kept : ∀ {key origin}, before.originOf? key = some origin → cache.originOf? key = some origin ∨
    ∃ reversed old now, IsModuleName reversed ∧ key = dottedName reversed ∧
      origin = .bareDirectory old ∧ cache.originOf? key = some (.bareDirectory now) ∧
      homeOf before tree root reversed = some now
  nodup : (cache.names.filter fun name => !before.has name).Nodup
  found : ∀ {key origin}, ¬ before.has key → cache.originOf? key = some origin →
    FoundAs before tree root key origin

variable {before cache middle after : ModuleCache} {tree : Tree} {root directory parent : Location}
  {key name : String} {outer reversed : List String} {m : LoadedModule} {origin : ModuleOrigin}

theorem not_has_iff_originOf? : ¬ before.has key ↔ before.originOf? key = none := by
  rw [has_eq_isSome_originOf?, Bool.not_eq_true, Option.isSome_eq_false_iff,
    Option.isNone_iff_eq_none]

theorem homeOf_cons_of_new (h : ¬ before.has (dottedName (name :: outer)))
    (hp : homeOf before tree root outer = some parent) :
    homeOf before tree root (name :: outer) =
      (searchModule tree parent name).bind ModuleOrigin.directory? := by
  rw [homeOf, not_has_iff_originOf?.mp h, hp]
  rfl

namespace Placed

theorem refl (before : ModuleCache) (tree : Tree) (root : Location) :
    Placed before tree root before where
  kept ho := Or.inl ho
  nodup := by
    have hnone : (before.names.filter fun name => !before.has name) = [] := by
      simp [List.filter_eq_nil_iff, ← Table.has_iff_mem_names]
    rw [hnone]
    exact List.nodup_nil
  found hnew ho := by simp [not_has_iff_originOf?.mp hnew] at ho

theorem has_of_before (h : Placed before tree root cache) (hb : before.has key) :
    cache.has key := by
  rw [has_eq_isSome_originOf?, Option.isSome_iff_exists] at hb
  obtain ⟨origin, ho⟩ := hb
  rw [has_eq_isSome_originOf?]
  rcases h.kept ho with hk | ⟨_, _, _, _, _, _, hk, _⟩ <;> simp [hk]

theorem eq_of_foundAs (h : FoundAs before tree root key origin) (hn : IsModuleName (name :: outer))
    (hk : key = dottedName (name :: outer)) (hp : homeOf before tree root outer = some parent) :
    searchModule tree parent name = some origin := by
  obtain ⟨name', outer', directory, hn', hk', hp', hs⟩ := h
  obtain ⟨rfl, rfl⟩ := List.cons.inj (dottedName_inj hn' hn (hk'.symm.trans hk))
  rw [hp] at hp'
  cases hp'
  exact hs

/-- A bare directory leads to its home once its package does. -/
theorem homeOf_of_bareDirectory (h : Placed before tree root cache)
    (hn : IsModuleName (name :: outer)) (hp : homeOf before tree root outer = some parent)
    (ho : cache.originOf? (dottedName (name :: outer)) = some (.bareDirectory directory)) :
    homeOf before tree root (name :: outer) =
      some (match searchModule tree parent name with
        | some (.bareDirectory found) => found
        | _ => directory) := by
  cases hb : before.originOf? (dottedName (name :: outer)) with
  | none =>
    have hnew := not_has_iff_originOf?.mpr hb
    rw [homeOf_cons_of_new hnew hp, eq_of_foundAs (h.found hnew ho) hn rfl hp]
    rfl
  | some old =>
    rcases h.kept hb with hk | ⟨reversed, before', now, hr, he, rfl, hk, hhome⟩
    · rw [ho] at hk
      cases hk
      simp only [homeOf, hb, hp, Option.map_some]
    · rw [ho] at hk
      cases hk
      obtain rfl := dottedName_inj hn hr he
      -- the directory is the home already, so looking again changes nothing
      simp only [homeOf, hb, hp, Option.map_some, Option.some.injEq] at hhome ⊢
      split <;> simp_all

/-- One new module is changed, or comes, or goes. -/
theorem update (h : Placed before tree root cache) (hnew : ¬ before.has key)
    (hnodup : (after.names.filter fun name => !before.has name).Nodup)
    (hother : ∀ other, other ≠ key → after.originOf? other = cache.originOf? other)
    (hkey : ∀ origin, after.originOf? key = some origin → FoundAs before tree root key origin) :
    Placed before tree root after where
  kept {other origin} ho := by
    have hne : other ≠ key := by
      rintro rfl
      exact hnew (by simp [has_eq_isSome_originOf?, ho])
    rw [hother other hne]
    exact h.kept ho
  nodup := hnodup
  found {other origin} hb ho := by
    by_cases hk : other = key
    · subst hk
      exact hkey origin ho
    · rw [hother other hk] at ho
      exact h.found hb ho

/-- A bare directory is moved to its home. -/
theorem move (h : Placed before tree root cache) (hn : IsModuleName (name :: outer))
    (hhas : cache.has (dottedName (name :: outer)))
    (hbare : ∀ {origin}, before.originOf? (dottedName (name :: outer)) = some origin →
      ∃ old, origin = .bareDirectory old)
    (hp : homeOf before tree root outer = some parent)
    (hs : searchModule tree parent name = some (.bareDirectory directory))
    (hhome : homeOf before tree root (name :: outer) = some directory)
    (hm : m.origin = .bareDirectory directory) :
    Placed before tree root (cache.insert (dottedName (name :: outer)) m) where
  kept {key origin} ho := by
    rw [originOf?_insert]
    split
    · rename_i hk
      subst hk
      obtain ⟨old, rfl⟩ := hbare ho
      exact Or.inr ⟨name :: outer, old, directory, hn, rfl, rfl, by rw [hm], hhome⟩
    · exact h.kept ho
  nodup := by
    rw [names_insert_of_has hhas]
    exact h.nodup
  found {key origin} hnew ho := by
    rw [originOf?_insert] at ho
    split at ho
    · rename_i hk
      obtain rfl := Option.some.inj ho
      exact ⟨name, outer, parent, hn, hk, hp, by rw [hm, hs]⟩
    · exact h.found hnew ho

/-- The directory of a package that is looked up is its home. -/
theorem directoryOf (h : Placed before tree root cache) (hn : reversed ≠ [] → IsModuleName reversed)
    (hd : cache.directoryOf tree root reversed = .ok (directory, after)) :
    homeOf before tree root reversed = some directory ∧ Placed before tree root after := by
  induction reversed generalizing directory after with
  | nil =>
    cases hd
    exact ⟨rfl, h⟩
  | cons name outer ih =>
    have hname := hn (List.cons_ne_nil name outer)
    unfold ModuleCache.directoryOf at hd
    split at hd
    · cases hd
    · rename_i m hm
      have ho : cache.originOf? (dottedName (name :: outer)) = some m.origin := by
        rw [originOf?, hm, Option.map_some]
      split at hd
      · cases hd
      · rename_i found horigin
        cases hd
        refine ⟨?_, h⟩
        rw [horigin] at ho
        cases hb : before.originOf? (dottedName (name :: outer)) with
        | none =>
          have hfound := h.found (not_has_iff_originOf?.mpr hb) ho
          obtain ⟨name', outer', parent, hn', he, hp, hs⟩ := hfound
          obtain ⟨rfl, rfl⟩ := List.cons.inj (dottedName_inj hname hn' he)
          rw [homeOf_cons_of_new (not_has_iff_originOf?.mpr hb) hp, hs]
          rfl
        | some old =>
          rcases h.kept hb with hk | ⟨_, _, _, _, _, _, hk, _⟩
          · rw [ho] at hk
            cases hk
            simp only [homeOf, hb]
          · rw [ho] at hk
            cases hk
      · rename_i old horigin
        rw [horigin] at ho
        cases hup : cache.directoryOf tree root outer with
        | error fault => simp [hup, Except.map] at hd
        | ok upper =>
          obtain ⟨parent, middle⟩ := upper
          obtain ⟨hparent, hmiddle⟩ := ih hname.tail hup
          have hhome := h.homeOf_of_bareDirectory hname hparent ho
          simp only [hup, Except.map, Except.ok.injEq, relocate, List.headD_cons] at hd
          split at hd
          · rename_i found hs
            cases hd
            rw [hs] at hhome
            refine ⟨hhome, hmiddle.move hname ?_ ?_ hparent hs hhome rfl⟩
            · rw [Table.has_iff_mem_names, names_directoryOf hup, ← Table.has_iff_mem_names,
                has_eq_isSome_originOf?, ho]
              rfl
            · intro origin hb
              rcases h.kept hb with hk | ⟨_, before', _, _, _, rfl, _, _⟩
              · rw [ho] at hk
                exact ⟨old, (Option.some.inj hk).symm⟩
              · exact ⟨before', rfl⟩
          · rename_i hs
            cases hd
            refine ⟨?_, hmiddle⟩
            rw [hhome]
            split
            · rename_i found hfound
              exact absurd hfound (hs found)
            · rfl

/-- Only modules of before are moved. -/
theorem get?_directoryOf (h : Placed before tree root cache)
    (hn : reversed ≠ [] → IsModuleName reversed)
    (hd : cache.directoryOf tree root reversed = .ok (directory, after)) (hnew : ¬ before.has key) :
    after.get? key = cache.get? key := by
  induction reversed generalizing directory after with
  | nil =>
    cases hd
    rfl
  | cons name outer ih =>
    have hname := hn (List.cons_ne_nil name outer)
    unfold ModuleCache.directoryOf at hd
    split at hd
    · cases hd
    · rename_i m hm
      split at hd
      · cases hd
      · cases hd
        rfl
      · rename_i old horigin
        cases hup : cache.directoryOf tree root outer with
        | error fault => simp [hup, Except.map] at hd
        | ok upper =>
          obtain ⟨parent, middle⟩ := upper
          simp only [hup, Except.map, Except.ok.injEq, relocate, List.headD_cons] at hd
          split at hd <;> cases hd
          · rename_i hs
            by_cases hk : key = dottedName (name :: outer)
            · -- a new module is at home already
              subst hk
              have ho : cache.originOf? (dottedName (name :: outer)) = some m.origin := by
                rw [originOf?, hm, Option.map_some]
              have hself := eq_of_foundAs (h.found hnew ho) hname rfl
                (h.directoryOf hname.tail hup).1
              rw [hs, Option.some.injEq] at hself
              rw [Table.get?_insert_self, hm, hself]
            · rw [Table.get?_insert_of_ne hk, ih hname.tail hup]
          · exact ih hname.tail hup

/-- A new module begins to be evaluated. -/
theorem begin (h : Placed before tree root cache) (hnew : ¬ cache.has key)
    (hfound : FoundAs before tree root key origin) :
    Placed before tree root (cache.insert key ⟨origin, []⟩) := by
  refine h.update (mt h.has_of_before hnew) ?_ ?_ ?_
  · have hnotin : key ∉ cache.names := by rwa [← Table.has_iff_mem_names]
    rw [Table.names_insert, if_neg hnotin, List.filter_append]
    refine List.Nodup.append h.nodup ((List.nodup_singleton _).filter _) ?_
    intro other hother hself
    rw [List.mem_singleton.mp (List.mem_of_mem_filter hself)] at hother
    exact hnotin (List.mem_of_mem_filter hother)
  · intro other hother
    rw [originOf?_insert, if_neg hother]
  · intro origin' ho
    rw [originOf?_insert, if_pos rfl] at ho
    obtain rfl := Option.some.inj ho
    exact hfound

/-- A new module is dropped. -/
theorem erase (h : Placed before tree root cache) (hnew : ¬ before.has key) :
    Placed before tree root (cache.erase key) := by
  refine h.update hnew ?_ ?_ ?_
  · rw [Table.names_erase, List.filter_comm]
    exact h.nodup.filter _
  · intro other hother
    rw [originOf?_erase, if_neg hother]
  · simp [originOf?_erase]

/-- A new module is kept. -/
theorem settle (h : Placed before tree root cache)
    (hnew : ¬ before.has (dottedName (name :: outer)))
    (hfound : FoundAs before tree root (dottedName (name :: outer)) m.origin) :
    Placed before tree root (cache.settle m name outer) := by
  refine h.update hnew ?_ ?_ ?_
  · rw [names_settle, List.filter_append, List.filter_comm]
    refine (h.nodup.filter _).append ((List.nodup_singleton _).filter _) ?_
    intro other hother hself
    rw [List.mem_singleton.mp (List.mem_of_mem_filter hself)] at hother
    simp at hother
  · intro other hother
    rw [originOf?_settle, if_neg hother]
  · intro origin' ho
    rw [originOf?_settle, if_pos rfl] at ho
    obtain rfl := Option.some.inj ho
    exact hfound

/-- A module that is loaded stands where its name is searched, and so does what its evaluation
loads; if it is dropped in the end, that stays. -/
theorem isObeyed (before : ModuleCache) (tree : Tree) (root : Location) :
    IsObeyed tree root fun cache after =>
      Placed before tree root cache → Placed before tree root after where
  refl _ h := h
  trans h h' hp := h' (h hp)
  move hn hd h := (h.directoryOf hn hd).2
  load {cache moved during directory name outer origin} hn hd hfresh hs hduring := by
    have hall (h : Placed before tree root cache) : ¬ before.has (dottedName (name :: outer)) ∧
        FoundAs before tree root (dottedName (name :: outer)) origin ∧
        Placed before tree root during := by
      obtain ⟨hhome, hmoved⟩ := h.directoryOf hn.tail hd
      have hfound : FoundAs before tree root (dottedName (name :: outer)) origin :=
        ⟨name, outer, directory, hn, rfl, hhome, hs⟩
      exact ⟨mt hmoved.has_of_before hfresh, hfound, hduring (hmoved.begin hfresh hfound)⟩
    constructor
    · intro h
      obtain ⟨hnew, -, hplaced⟩ := hall h
      exact hplaced.erase hnew
    · intro h
      obtain ⟨hnew, hfound, hplaced⟩ := hall h
      exact hplaced.settle hnew hfound

/-- A new module is loaded once. -/
theorem get?_of_mem (h : Placed before tree root cache) (hnew : ¬ before.has key)
    (hm : (key, m) ∈ cache) : cache.get? key = some m := by
  have hentries : ((List.filter (fun entry => !before.has entry.1) cache).map Prod.fst).Nodup := by
    have hnames := h.nodup
    rwa [Table.names, List.filter_map] at hnames
  have hhas : cache.has key := Table.has_iff_mem_names.mpr (List.mem_map_of_mem hm)
  rw [Table.has_eq_isSome, Option.isSome_iff_exists] at hhas
  obtain ⟨first, hfirst⟩ := hhas
  have hsame : (key, m) = (key, first) :=
    List.inj_on_of_nodup_map hentries (List.mem_filter.mpr ⟨hm, by simpa using hnew⟩)
      (List.mem_filter.mpr ⟨Table.mem_of_get? hfirst, by simpa using hnew⟩) rfl
  rw [hfirst, (Prod.mk.inj hsame).2]

end Placed

/-- The loaded modules are such as imports load when no module is loaded before. -/
def ModuleCache.Sound (tree : Tree) (root : Location) (cache : ModuleCache) : Prop :=
  Placed [] tree root cache

/-- What is found for a name in the directory to which its components lead. -/
def Tree.namedOrigin? (tree : Tree) (root : Location) : List String → Option ModuleOrigin
  | [] => none
  | name :: outer => searchModule tree (root ++ outer.reverse) name

/-- Without modules of before, names are searched where they say. -/
theorem homeOf_nil (h : homeOf [] tree root reversed = some directory) :
    directory = root ++ reversed.reverse := by
  induction reversed generalizing directory with
  | nil =>
    cases h
    simp
  | cons name outer ih =>
    have hnew : ¬ Table.has ([] : ModuleCache) (dottedName (name :: outer)) := by simp [Table.has]
    have hnone := not_has_iff_originOf?.mp hnew
    cases hp : homeOf [] tree root outer with
    | none =>
      rw [homeOf, hnone, hp] at h
      cases h
    | some parent =>
      rw [homeOf_cons_of_new hnew hp] at h
      obtain ⟨origin, hs, hd⟩ := Option.bind_eq_some_iff.mp h
      obtain rfl := ih hp
      rcases searchModule_cases hs with rfl | rfl | rfl <;>
        simp_all [ModuleOrigin.directory?]

namespace ModuleCache

theorem sound_nil (tree : Tree) (root : Location) : Sound tree root [] :=
  Placed.refl [] tree root

theorem Sound.namedOrigin? (h : Sound tree root cache) (hn : IsModuleName reversed)
    (ho : cache.originOf? (dottedName reversed) = some origin) :
    tree.namedOrigin? root reversed = some origin := by
  obtain ⟨name, outer, directory, hn', he, hp, hs⟩ := h.found (by simp [Table.has]) ho
  obtain rfl := dottedName_inj hn hn' he
  rwa [homeOf_nil hp] at hs

/-- Every loaded module has a name. -/
theorem Sound.key_ne_empty (h : Sound tree root cache) (hm : cache.get? key = some m) :
    key ≠ "" := by
  have ho : cache.originOf? key = some m.origin := by rw [originOf?, hm, Option.map_some]
  obtain ⟨name, outer, directory, hn, rfl, -, -⟩ := h.found (by simp [Table.has]) ho
  exact dottedName_ne_empty hn

theorem Sound.importWithin (h : Sound tree root cache) (depth : Nat) (name : String) :
    Sound tree root (importWithin tree root depth cache name).2 :=
  (Placed.isObeyed [] tree root).importWithin depth cache name h

theorem Sound.loadModule (h : Sound tree root cache) (depth : Nat) (hn : IsModuleName reversed) :
    Sound tree root
      (cache.loadModule tree root (ModuleCache.importWithin tree root depth) reversed).2 :=
  have hobeyed := Placed.isObeyed [] tree root
  hobeyed.loadModule (hobeyed.importWithin depth) hn cache h

theorem Sound.importNamed (h : Sound tree root cache) (name : String) :
    Sound tree root (cache.importNamed tree root name).2 :=
  h.importWithin tree.importDepth name

/-- Packages stay where they were found. -/
theorem Sound.directoryOf_eq (h : Sound tree root cache)
    (hn : reversed ≠ [] → IsModuleName reversed)
    (hd : cache.directoryOf tree root reversed = .ok (directory, after)) :
    directory = root ++ reversed.reverse ∧ after = cache := by
  refine ⟨homeOf_nil (h.directoryOf hn hd).1, ?_⟩
  induction reversed generalizing directory after with
  | nil =>
    cases hd
    rfl
  | cons name outer ih =>
    have hname := hn (List.cons_ne_nil name outer)
    unfold ModuleCache.directoryOf at hd
    split at hd
    · cases hd
    · rename_i m hm
      split at hd
      · cases hd
      · cases hd
        rfl
      · rename_i old horigin
        cases hup : cache.directoryOf tree root outer with
        | error fault => simp [hup, Except.map] at hd
        | ok upper =>
          obtain ⟨parent, middle⟩ := upper
          obtain rfl := ih hname.tail hup
          obtain rfl := homeOf_nil (h.directoryOf hname.tail hup).1
          have hs : searchModule tree (root ++ outer.reverse) name = some (.bareDirectory old) :=
            h.namedOrigin? hname (by rw [originOf?, hm, Option.map_some, horigin])
          -- the module is put back as it is
          have hkeep : ({ m with origin := .bareDirectory old } : LoadedModule) = m := by
            rw [← horigin]
          simp only [hup, Except.map, Except.ok.injEq, relocate, List.headD_cons, hs] at hd
          cases hd
          rw [hkeep, Table.insert_of_get? hm]

/-- A module that is imported stands where its name says. -/
theorem Sound.namedOrigin?_of_import (h : Sound tree root cache) {depth : Nat}
    (hi : (ModuleCache.importWithin tree root depth cache name).1 = .ok m) :
    tree.namedOrigin? root (componentsOf name) = some m.origin := by
  obtain ⟨hn, hm⟩ := get?_importWithin hi
  refine (h.importWithin depth name).namedOrigin? hn ?_
  rw [dottedName_componentsOf, originOf?, hm, Option.map_some]

end ModuleCache

end SymbolExport
