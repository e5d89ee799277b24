import SymbolExport.Proofs.Frame
import SymbolExport.Proofs.Placement
import SymbolExport.Proofs.Resolution

/-!
The cleanup behind a block of imports. It cleans up as it should if every new module can tell its
places. That is not always so: a package may have failed and be gone, while a bare directory that it
has imported is still loaded; and a submodule may have taken the name by which its package tells its
file. Then the cleanup fails, and leaves everything as it is.
-/
namespace SymbolExport

/-- The path of a package is known: the packages on the way to it are loaded, up to one that is no
bare directory. -/
def ModuleCache.HasPath (cache : ModuleCache) : List String → Prop
  | [] => True
  | name :: outer =>
    match cache.originOf? (dottedName (name :: outer)) with
    | some (.package _) => True
    | some (.bareDirectory _) => HasPath cache outer
    | _ => False

/-- A module tells its file by a path that can be followed, if it has a file at all. -/
def LoadedModule.TellsFile (tree : Tree) (cwd : Location) (m : LoadedModule) : Prop :=
  ∃ file?, m.toldFile? = .ok file? ∧ ∀ file ∈ file?, ∃ real, tree.resolve cwd file = .ok real

/-- One of the places of a module is below a root once its links are followed. -/
def LoadedModule.LiesBelow (tree : Tree) (cwd root : Location) (m : LoadedModule) : Prop :=
  ∃ places, m.places = .ok places ∧ ∃ place ∈ places, ∃ real,
    tree.resolve cwd place = .ok real ∧ root <+: real

/-- The places of a loaded module are known. -/
structure ModuleCache.Locates (cache : ModuleCache) (tree : Tree) (cwd : Location) (name : String)
    (m : LoadedModule) : Prop where
  path : ∀ directory, m.origin = .bareDirectory directory → cache.HasPath (componentsOf name)
  file : m.TellsFile tree cwd

/-- The places of all modules are known that a block of imports has loaded. -/
def World.IsTidy (before during : World) : Prop :=
  ∀ name m, ¬ before.modules.has name → during.modules.get? name = some m →
    during.modules.Locates before.tree before.cwd name m

/-- What a block of imports has left when it has ended: its cleanup has not failed, modules are
searched where they were, all modules of before are loaded from the files they were loaded from, and
of those that the block has loaded exactly the ones are gone that lie below the root. -/
structure World.CleansUp (before : World) (root : Location) (during after : World) : Prop where
  succeeds : during.modules.cleanUp before.modules before.tree before.cwd root =
    (.ok (), after.modules)
  searchPath : after.searchPath = before.searchPath
  known : ∀ {name}, after.modules.has name → during.modules.has name
  kept : ∀ {name m}, before.modules.get? name = some m →
    ∃ now, after.modules.get? name = some now ∧ now.origin.file? = m.origin.file?
  gone : ∀ {name m}, ¬ before.modules.has name → during.modules.get? name = some m →
    m.LiesBelow before.tree before.cwd root → ¬ after.modules.has name
  stays : ∀ {name m}, ¬ before.modules.has name → during.modules.get? name = some m →
    ¬ m.LiesBelow before.tree before.cwd root → after.modules.get? name = some m

/-- What a block of imports has left whose cleanup has failed: no module is forgotten, and modules
are still searched below its root. -/
structure World.LeavesAll (before : World) (root : Location) (during after : World) : Prop where
  searchPath : after.searchPath = root :: before.searchPath
  names : after.modules.names = during.modules.names
  loaded : ∀ {name}, ¬ before.modules.has name →
    after.modules.get? name = during.modules.get? name

variable {tree : Tree} {cwd root directory : Location} {before cache other after : ModuleCache}
  {name : String} {reversed : List String} {m : LoadedModule} {origin : ModuleOrigin}
  {places : List Path}

theorem Tree.resolve_of_absolute (tree : Tree) (cwd : Location) (place : Location) :
    tree.resolve cwd (.ofLocation place) = tree.resolve [] (.ofLocation place) := by
  simp [resolve, Path.isAbsolute, Path.ofLocation]

/-- Where a module is found, its file and its directory can be resolved. -/
theorem exists_resolve_of_searchModule {base : String}
    (h : searchModule tree directory base = some origin) :
    (∀ place ∈ origin.file?, ∃ real, tree.resolve [] (.ofLocation place) = .ok real) ∧
      ∀ place ∈ origin.directory?, ∃ real, tree.resolve [] (.ofLocation place) = .ok real := by
  unfold searchModule at h
  dsimp only at h
  split at h
  · rename_i hfile
    cases h
    obtain ⟨content, body, hstat⟩ := Tree.isFile_iff_stat.mp hfile
    obtain ⟨real, hreal, -⟩ := Tree.resolve_of_stat hstat
    obtain ⟨above, habove⟩ := Tree.resolve_parent_of_stat hstat
    have hparent : (Path.ofLocation (directory ++ [base] ++ [initialFile])).parent =
        .ofLocation (directory ++ [base]) := by
      simp [Path.parent, Path.ofLocation]
    rw [hparent] at habove
    simp only [ModuleOrigin.file?, ModuleOrigin.directory?, Option.mem_some_iff, forall_eq']
    exact ⟨⟨real, hreal⟩, ⟨above, habove⟩⟩
  · split at h
    · rename_i hfile
      cases h
      obtain ⟨content, body, hstat⟩ := Tree.isFile_iff_stat.mp hfile
      obtain ⟨real, hreal, -⟩ := Tree.resolve_of_stat hstat
      simp only [ModuleOrigin.file?, ModuleOrigin.directory?, Option.mem_some_iff, forall_eq']
      exact ⟨⟨real, hreal⟩, by simp⟩
    · split at h
      · rename_i hdirectory
        cases h
        obtain ⟨entries, hstat⟩ := Tree.isDirectory_iff_stat.mp hdirectory
        obtain ⟨real, hreal, -⟩ := Tree.resolve_of_stat hstat
        simp only [ModuleOrigin.file?, ModuleOrigin.directory?, Option.mem_some_iff, forall_eq']
        exact ⟨by simp, ⟨real, hreal⟩⟩
      · cases h

theorem anyBelow_eq (root : Location)
    (h : ∀ place ∈ places, ∃ real, tree.resolve cwd place = .ok real) :
    ∃ isBelow, tree.anyBelow cwd root places = .ok isBelow ∧
      (isBelow ↔ ∃ place ∈ places, ∃ real, tree.resolve cwd place = .ok real ∧ root <+: real) := by
  induction places with
  | nil => exact ⟨false, rfl, by simp⟩
  | cons place rest ih =>
    obtain ⟨⟨real, hreal⟩, hrest⟩ := List.forall_mem_cons.mp h
    obtain ⟨isBelow, hbelow, hiff⟩ := ih hrest
    by_cases hprefix : root <+: real
    · refine ⟨true, ?_, by simp [hreal, hprefix]⟩
      simp [Tree.anyBelow, hreal, Except.mapError, bind, Except.bind, hprefix, pure, Except.pure]
    · refine ⟨isBelow, ?_, by simp [hreal, hprefix, hiff]⟩
      simp [Tree.anyBelow, hreal, Except.mapError, bind, Except.bind, hprefix, hbelow]

/-- The places of a module are decided if it tells its file. -/
theorem anyBelow_places (root : Location) (hs : searchModule tree directory name = some origin)
    (hm : m.origin = origin) (h : m.TellsFile tree cwd) :
    ∃ isBelow, m.places >>= tree.anyBelow cwd root = .ok isBelow ∧
      (isBelow ↔ m.LiesBelow tree cwd root) := by
  obtain ⟨file?, htold, hresolve⟩ := h
  obtain ⟨-, hdirectory⟩ := exists_resolve_of_searchModule hs
  have hplaces : m.places =
      .ok (file?.toList ++ (m.origin.directory?.map Path.ofLocation).toList) := by
    simp [LoadedModule.places, htold, Except.map]
  have hall : ∀ place ∈ file?.toList ++ (m.origin.directory?.map Path.ofLocation).toList,
      ∃ real, tree.resolve cwd place = .ok real := by
    intro place hp
    rcases List.mem_append.mp hp with hp | hp
    · exact hresolve place (Option.mem_toList.mp hp)
    · rw [Option.mem_toList, Option.map_eq_some_iff] at hp
      obtain ⟨location, hl, rfl⟩ := hp
      rw [Tree.resolve_of_absolute]
      exact hdirectory location (hm ▸ hl)
  obtain ⟨isBelow, hbelow, hiff⟩ := anyBelow_eq root hall
  refine ⟨isBelow, by rw [hplaces]; exact hbelow, hiff.trans ?_⟩
  simp only [LoadedModule.LiesBelow, hplaces, Except.ok.injEq, exists_eq_left']

theorem anyBelow_places_eq_error (root : Location) (h : ¬ m.TellsFile tree cwd) :
    ∃ fault, m.places >>= tree.anyBelow cwd root = .error fault := by
  cases htold : m.toldFile? with
  | error fault =>
    exact ⟨fault, by simp [LoadedModule.places, htold, Except.map, bind, Except.bind]⟩
  | ok file? =>
    cases file? with
    | none => exact absurd ⟨none, htold, by simp⟩ h
    | some file =>
      cases hr : tree.resolve cwd file with
      | ok real => exact absurd ⟨some file, htold, by simp [hr]⟩ h
      | error loop =>
        refine ⟨.linkLoop loop, ?_⟩
        simp [LoadedModule.places, htold, Except.map, bind, Except.bind, Tree.anyBelow, hr,
          Except.mapError]

theorem Table.foldl_erase {α : Type} (names : List String) (t : Table α) (name : String) :
    (names.foldl Table.erase t).get? name = if name ∈ names then none else t.get? name := by
  induction names generalizing t with
  | nil => simp
  | cons first rest ih =>
    rw [List.foldl_cons, ih, Table.get?_erase]
    by_cases hr : name ∈ rest <;> by_cases hf : name = first <;> simp [hr, hf]

namespace ModuleCache

theorem exists_directoryOf_iff (cache : ModuleCache) (tree : Tree) (root : Location)
    (reversed : List String) : (∃ directory after,
    cache.directoryOf tree root reversed = .ok (directory, after)) ↔ cache.HasPath reversed := by
  induction reversed with
  | nil => simp [directoryOf, HasPath]
  | cons name outer ih =>
    rw [HasPath, originOf?]
    unfold directoryOf
    cases hm : cache.get? (dottedName (name :: outer)) with
    | none => simp
    | some m =>
      cases ho : m.origin with
      | file place => simp [ho]
      | package place => simp [ho]
      | bareDirectory place =>
        simp only [ho, Option.map_some, ← ih]
        cases cache.directoryOf tree root outer with
        | error fault => simp [Except.map]
        | ok upper =>
          obtain ⟨parent, middle⟩ := upper
          simp only [Except.map, Except.ok.injEq]
          exact ⟨fun _ => ⟨_, _, rfl⟩, fun _ => ⟨_, _, rfl⟩⟩

/-- Two states of the loaded modules between which only bare directories of before have moved. -/
structure Moved (before : ModuleCache) (tree : Tree) (root : Location) (cache after : ModuleCache) :
    Prop where
  placed : Placed before tree root cache
  placed_after : Placed before tree root after
  names : after.names = cache.names
  same : ∀ {name}, ¬ before.has name → after.get? name = cache.get? name

theorem Moved.refl (h : Placed before tree root cache) : Moved before tree root cache cache :=
  ⟨h, h, rfl, fun _ => rfl⟩

theorem Moved.trans (h : Moved before tree root cache other)
    (h' : Moved before tree root other after) : Moved before tree root cache after :=
  ⟨h.placed, h'.placed_after, h'.names.trans h.names, fun hn => (h'.same hn).trans (h.same hn)⟩

theorem moved_directoryOf (h : Placed before tree root cache)
    (hn : reversed ≠ [] → IsModuleName reversed)
    (hd : cache.directoryOf tree root reversed = .ok (directory, after)) :
    Moved before tree root cache after :=
  ⟨h, (h.directoryOf hn hd).2, names_directoryOf hd, fun hnew => h.get?_directoryOf hn hd hnew⟩

theorem Moved.hasPath_iff (h : Moved before tree root cache after) :
    after.HasPath reversed ↔ cache.HasPath reversed := by
  induction reversed with
  | nil => rfl
  | cons name outer ih =>
    rw [HasPath, HasPath]
    by_cases hnew : before.has (dottedName (name :: outer))
    · -- a module of before is of the same kind in both states
      obtain ⟨origin, ho⟩ := Option.isSome_iff_exists.mp
        (has_eq_isSome_originOf? before _ ▸ hnew)
      rcases h.placed.kept ho with hk | ⟨_, _, _, _, _, rfl, hk, _⟩ <;>
        rcases h.placed_after.kept ho with hk' | ⟨_, _, _, _, _, hold, hk', _⟩ <;>
          rw [hk, hk']
      · cases origin <;> simp [ih]
      · subst hold
        exact ih
      · exact ih
      · exact ih
    · rw [originOf?, originOf?, h.same hnew]
      split <;> simp [ih]

/-- Looking again at a new module finds it as it is, if its path is known. -/
theorem Moved.lookAgain (h : Moved before tree root cache other) (hnew : ¬ before.has name)
    (hm : cache.get? name = some m)
    (hpath : ∀ directory, m.origin = .bareDirectory directory →
      cache.HasPath (componentsOf name)) :
    ∃ after, other.lookAgain tree root name m = .ok (m, after) ∧
      Moved before tree root cache after := by
  cases ho : m.origin with
  | file | package => exact ⟨other, by simp [ModuleCache.lookAgain, ho], h⟩
  | bareDirectory directory =>
    obtain ⟨found, after, hd⟩ :=
      (exists_directoryOf_iff _ _ _ _).mpr (h.hasPath_iff.mpr (hpath directory ho))
    have horigin : cache.originOf? name = some (.bareDirectory directory) := by
      rw [originOf?, hm, Option.map_some, ho]
    obtain ⟨inner, outer, parent, hn, hname, hp, hs⟩ := h.placed.found hnew horigin
    have hcomponents : componentsOf name = inner :: outer := by
      rw [hname, hn.componentsOf_dottedName]
    have hhome := (h.placed_after.directoryOf (fun _ => hcomponents ▸ hn) hd).1
    rw [hcomponents, homeOf_cons_of_new (hname ▸ hnew) hp, hs] at hhome
    obtain rfl : directory = found := Option.some.inj hhome
    refine ⟨after, ?_, h.trans (moved_directoryOf h.placed_after (fun _ => hcomponents ▸ hn) hd)⟩
    have hkeep : ({ m with origin := .bareDirectory directory } : LoadedModule) = m := by
      rw [← ho]
    simp [ModuleCache.lookAgain, ho, hd, hkeep]

theorem Moved.lookAgain_eq_error (h : Moved before tree root cache other)
    (ho : m.origin = .bareDirectory directory) (hpath : ¬ cache.HasPath (componentsOf name)) :
    ∃ fault, other.lookAgain tree root name m = .error fault := by
  rw [← h.hasPath_iff, ← exists_directoryOf_iff other tree root] at hpath
  cases hd : other.directoryOf tree root (componentsOf name) with
  | ok found => exact absurd ⟨_, _, hd⟩ hpath
  | error fault => exact ⟨.unknownPath fault, by simp [ModuleCache.lookAgain, ho, hd]⟩

/-- What looking through new modules comes to: the names of those below the root, if the places of
all of them are known, and else a fault. -/
inductive Sifted (before : ModuleCache) (tree : Tree) (cwd root : Location) (cache : ModuleCache)
    (entries : List (String × LoadedModule)) :
    Except CleanupFault (List String) × ModuleCache → Prop
  | found {names after} (hmoved : Moved before tree root cache after)
      (hall : ∀ entry ∈ entries, ¬ before.has entry.1 →
        cache.Locates tree cwd entry.1 entry.2)
      (hnames : ∀ name, name ∈ names ↔ ∃ m, (name, m) ∈ entries ∧ ¬ before.has name ∧
        m.LiesBelow tree cwd root) : Sifted before tree cwd root cache entries (.ok names, after)
  | failed {fault after} {entry : String × LoadedModule} (hmoved : Moved before tree root cache after)
      (hentry : entry ∈ entries) (hnew : ¬ before.has entry.1)
      (hno : ¬ cache.Locates tree cwd entry.1 entry.2) :
      Sifted before tree cwd root cache entries (.error fault, after)

theorem sifted_namesToForget (cwd : Location) (h : Moved before tree root cache other)
    {entries : List (String × LoadedModule)} (hsub : ∀ entry ∈ entries, entry ∈ cache) :
    Sifted before tree cwd root cache entries
      (namesToForget before tree cwd root entries other) := by
  induction entries generalizing other with
  | nil => exact .found h (by simp) (by simp)
  | cons entry rest ih =>
    obtain ⟨name, m⟩ := entry
    obtain ⟨hentry, hrest⟩ := List.forall_mem_cons.mp hsub
    by_cases hnew : before.has name
    · simp only [namesToForget, hnew, if_true]
      generalize hresult : namesToForget before tree cwd root rest other = result
      cases hresult ▸ ih h hrest with
      | found hmoved hall hnames =>
        refine .found hmoved (List.forall_mem_cons.mpr ⟨absurd hnew, hall⟩) fun other => ?_
        rw [hnames]
        refine exists_congr fun m' => ⟨fun ⟨hm, hr⟩ => ⟨List.mem_cons_of_mem _ hm, hr⟩, ?_⟩
        rintro ⟨hm, hno, hbelow⟩
        refine ⟨(List.mem_cons.mp hm).resolve_left ?_, hno, hbelow⟩
        rintro ⟨⟩
        exact hno hnew
      | failed hmoved he hn hno => exact .failed hmoved (List.mem_cons_of_mem _ he) hn hno
    · have hm := h.placed.get?_of_mem hnew hentry
      have hself : (name, m) ∈ (name, m) :: rest := List.mem_cons_self
      by_cases hpath : ∀ directory, m.origin = .bareDirectory directory →
          cache.HasPath (componentsOf name)
      · obtain ⟨middle, hlook, hmiddle⟩ := h.lookAgain hnew hm hpath
        by_cases hfile : m.TellsFile tree cwd
        · have ho : cache.originOf? name = some m.origin := by
            rw [originOf?, hm, Option.map_some]
          obtain ⟨inner, outer, parent, -, -, -, hs⟩ :=
            h.placed.found hnew ho
          obtain ⟨isBelow, hbelow, hiff⟩ := anyBelow_places root hs rfl hfile
          simp only [namesToForget, hnew, hlook, hbelow, Bool.false_eq_true, if_false]
          generalize hresult : namesToForget before tree cwd root rest middle = result
          cases hresult ▸ ih hmiddle hrest with
          | failed hmoved he hn hno => exact .failed hmoved (List.mem_cons_of_mem _ he) hn hno
          | found hmoved hall hnames =>
            refine .found hmoved (List.forall_mem_cons.mpr ⟨fun _ => ⟨hpath, hfile⟩, hall⟩)
              fun other => ?_
            simp only [List.mem_cons, Prod.mk.injEq]
            constructor
            · intro ho
              by_cases hb : isBelow
              · rw [if_pos hb, List.mem_cons] at ho
                rcases ho with rfl | ho
                · exact ⟨m, Or.inl ⟨rfl, rfl⟩, hnew, hiff.mp hb⟩
                · obtain ⟨m', hm', hr⟩ := (hnames other).mp ho
                  exact ⟨m', Or.inr hm', hr⟩
              · rw [if_neg hb] at ho
                obtain ⟨m', hm', hr⟩ := (hnames other).mp ho
                exact ⟨m', Or.inr hm', hr⟩
            · rintro ⟨m', ⟨rfl, rfl⟩ | hm', hn', hbelow'⟩
              · rw [if_pos (hiff.mpr hbelow')]
                exact List.mem_cons_self
              · have hin := (hnames other).mpr ⟨m', hm', hn', hbelow'⟩
                split
                · exact List.mem_cons_of_mem name hin
                · exact hin
        · obtain ⟨fault, hfault⟩ := anyBelow_places_eq_error root hfile
          simp only [namesToForget, hnew, hlook, hfault, Bool.false_eq_true, if_false]
          exact .failed hmiddle hself hnew fun hl => hfile hl.file
      · simp only [not_forall] at hpath
        obtain ⟨directory, ho, hno⟩ := hpath
        obtain ⟨fault, hfault⟩ := h.lookAgain_eq_error ho hno
        simp only [namesToForget, hnew, hfault, Bool.false_eq_true, if_false]
        exact .failed h hself hnew fun hl => hno (hl.path directory ho)

end ModuleCache

namespace World

variable {w during : World}

/-- What a cleanup comes to: it does what it should exactly if the places of all new modules are
known. -/
theorem cleanUp_decided (ht : during.tree = w.tree) (hc : during.cwd = w.cwd)
    (h : Placed w.modules w.tree root during.modules) :
    (w.IsTidy during ∧ ∃ modules,
      during.modules.cleanUp w.modules during.tree during.cwd root = (.ok (), modules) ∧
        w.CleansUp root during { during with modules := modules, searchPath := w.searchPath }) ∨
      ¬ w.IsTidy during ∧ ∃ fault modules,
        during.modules.cleanUp w.modules during.tree during.cwd root = (.error fault, modules) ∧
          modules.names = during.modules.names ∧
          ∀ {name}, ¬ w.modules.has name → modules.get? name = during.modules.get? name := by
  have hsifted := ModuleCache.sifted_namesToForget w.cwd (.refl h) fun _ => id
  rw [ht, hc]
  generalize hresult : ModuleCache.namesToForget w.modules w.tree w.cwd root during.modules
    during.modules = result at hsifted
  cases hsifted with
  | @failed fault after entry hmoved he hn hno =>
    refine Or.inr ⟨fun htidy => hno (htidy _ _ hn (h.get?_of_mem hn he)), fault, after, ?_,
      hmoved.names, hmoved.same⟩
    simp only [ModuleCache.cleanUp, hresult]
  | @found names after hmoved hall hnames =>
    have hclean : during.modules.cleanUp w.modules w.tree w.cwd root =
        (.ok (), names.foldl Table.erase after) := by
      simp only [ModuleCache.cleanUp, hresult]
    have hforgotten {name : String} {m : LoadedModule} (hnew : ¬ w.modules.has name)
        (hm : during.modules.get? name = some m) :
        name ∈ names ↔ m.LiesBelow w.tree w.cwd root := by
      rw [hnames]
      constructor
      · rintro ⟨m', hm', -, hbelow⟩
        obtain rfl := Option.some.inj ((h.get?_of_mem hnew hm').symm.trans hm)
        exact hbelow
      · exact fun hbelow => ⟨m, Table.mem_of_get? hm, hnew, hbelow⟩
    refine Or.inl ⟨fun name m hn hm => hall _ (Table.mem_of_get? hm) hn, _, hclean, hclean, rfl,
      ?_, ?_, ?_, ?_⟩
    · intro name hhas
      rw [Table.has_eq_isSome, Table.foldl_erase] at hhas
      split at hhas
      · cases hhas
      · rwa [Table.has_iff_mem_names, ← hmoved.names, ← Table.has_iff_mem_names,
          Table.has_eq_isSome]
    · intro name m hm
      have hhas : w.modules.has name := by simp [Table.has_eq_isSome, hm]
      have hstays : name ∉ names := fun hin => by
        obtain ⟨-, -, hno, -⟩ := (hnames name).mp hin
        exact hno hhas
      have hbefore : w.modules.originOf? name = some m.origin := by
        rw [ModuleCache.originOf?, hm, Option.map_some]
      have hnow : ∃ now, after.originOf? name = some now ∧ now.file? = m.origin.file? := by
        rcases hmoved.placed_after.kept hbefore with hk | ⟨_, _, now, _, _, hold, hk, _⟩
        · exact ⟨_, hk, rfl⟩
        · exact ⟨_, hk, by rw [hold]; rfl⟩
      obtain ⟨origin, horigin, hfile⟩ := hnow
      obtain ⟨now, hnow, rfl⟩ := Option.map_eq_some_iff.mp horigin
      exact ⟨now, by rw [Table.foldl_erase, if_neg hstays, hnow], hfile⟩
    · intro name m hnew hm hbelow
      simp [Table.has_eq_isSome, Table.foldl_erase, (hforgotten hnew hm).mpr hbelow]
    · intro name m hnew hm hbelow
      rw [Table.foldl_erase, if_neg (mt (hforgotten hnew hm).mp hbelow), hmoved.same hnew, hm]

/-- The modules that look-ups load stand where their names are searched. -/
theorem placed_loadTypes (w : World) (root : Location) (types : List ResolvedType) :
    Placed w.modules w.tree root ((w.opened root).loadTypes types).2.modules :=
  (reads_loadTypes (w.opened root) types).obeys rfl (Placed.isObeyed w.modules w.tree root)
    (.refl w.modules w.tree root)

def valueError : Raised where
  kind := "ValueError"
  argument := .text ""

/-- A package that imports a bare directory of its own, and then raises. -/
def packageRaising : World where
  tree := .directory [("a", .directory [
    (initialFile, .file [] { imports := ["a.b"], raised? := some valueError }),
    ("b", .directory [("s.py", .file [] {})])])]
  cwd := []
  home := []

/-- The loaded modules that the package leaves behind. -/
def strayModules : ModuleCache :=
  [("a.b", ⟨.bareDirectory ["a", "b"], []⟩)]

theorem loadTypes_packageRaising : ∃ log,
    (packageRaising.opened []).loadTypes [⟨"a", "X"⟩] =
      (.ok [none], { packageRaising.opened [] with modules := strayModules, log := log }) := by
  have himport : (packageRaising.opened []).importModule "a" = (.error (.raised valueError),
      { packageRaising.opened [] with modules := strayModules }) := by cbv
  exact ⟨_, by simp only [loadTypes, loadType, himport]; rfl⟩

theorem importingFrom_of_cleanUp_eq_error {α : Type} {w after : World} {root : Location}
    {a : World → Except Failure α × World} {result : Except Failure α} {fault : CleanupFault}
    {modules : ModuleCache} (ha : a (w.opened root) = (result, after))
    (hc : after.modules.cleanUp w.modules after.tree after.cwd root = (.error fault, modules)) :
    w.importingFrom root a = (.error (.cleanup fault), { after with modules := modules }) := by
  rw [opened] at ha
  simp only [importingFrom, ha, hc]

end World

end SymbolExport
