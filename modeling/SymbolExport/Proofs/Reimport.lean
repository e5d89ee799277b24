import SymbolExport.Proofs.Rescan

/-!
Imports in trees with the same sources. What was found for a name is found again, so an import has
the same result and loads the same modules, unless a name for which nothing was found comes to stand
for a new directory.
-/
namespace SymbolExport

variable {before after tree : Tree} {root directory place : Location} {name moduleName : String}
  {outer reversed : List String} {origin : ModuleOrigin} {cache middle : ModuleCache}

theorem isSourceName_append (h : name ≠ "") : isSourceName (name ++ moduleSuffix) := by
  have hname : name ++ moduleSuffix = String.ofList (name.toList ++ '.' :: "py".toList) := by
    rw [← String.toList_inj]
    simp [moduleSuffix]
  have hne : name.toList ≠ [] := by simpa using h
  refine decide_eq_true ?_
  rw [Path.suffixOf, hname, Path.splitName_ofList hne (by simp) (by simp)]
  rfl

theorem isSourceName_initialFile : isSourceName initialFile := by decide +kernel

theorem ne_parent_of_dotFree (h : '.' ∉ name.toList) : name ≠ ".." := by
  rintro rfl
  exact h (by decide)

theorem append_moduleSuffix_ne_parent (name : String) : name ++ moduleSuffix ≠ ".." := by
  intro h
  have hlast := congrArg (fun s => s.toList.getLast?) h
  simp [moduleSuffix] at hlast

theorem searchModule_ne_none_of_directory (hl : tree.isLinkFree) (hp : ".." ∉ directory ++ [name])
    (hd : tree.HasDirectoryAt (directory ++ [name])) : searchModule tree directory name ≠ none := by
  have hdirectory : tree.isDirectory [] (.ofLocation (directory ++ [name])) :=
    (Tree.isDirectory_ofLocation_iff hl hp).mpr hd
  simp only [searchModule, hdirectory, if_true]
  split
  · simp
  · split <;> simp

theorem searchModule_ne_none_of_file (hl : tree.isLinkFree)
    (hp : ".." ∉ directory ++ [name ++ moduleSuffix])
    (hf : tree.HasFileAt (directory ++ [name ++ moduleSuffix])) :
    searchModule tree directory name ≠ none := by
  have hfile : tree.isFile [] (.ofLocation (directory ++ [name ++ moduleSuffix])) :=
    (Tree.isFile_ofLocation_iff hl hp).mpr hf
  simp only [searchModule, hfile, if_true]
  split <;> simp

theorem Tree.bodyAt_of_not_hasFileAt (h : ¬ tree.HasFileAt place) : tree.bodyAt place = {} := by
  unfold bodyAt
  split
  · rename_i content body hs
    exact absurd ⟨content, body, surface_eq_file_iff.mp hs⟩ h
  · rfl

theorem ModuleOrigin.body_eq_bodyAt (hl : tree.isLinkFree) (hp : ".." ∉ place)
    (hf : origin.file? = some place) : origin.body tree = tree.bodyAt place := by
  unfold ModuleOrigin.body
  rw [hf, Option.map_some]
  split
  · rename_i content body hstat
    have ha := (Tree.stat_ofLocation_iff hl hp).mp (Option.some.inj hstat)
    rw [Tree.bodyAt_of_surface (Tree.surface_eq_file_iff.mpr ha)]
  · rename_i hno
    rw [Tree.bodyAt_of_not_hasFileAt]
    rintro ⟨content, body, ha⟩
    exact hno content body (congrArg some ((Tree.stat_ofLocation_iff hl hp).mpr ha))

/-- What a name and the packages on the way to it stand for is found as before. -/
def Tree.FindsAgain (before after : Tree) (root : Location) (reversed : List String) : Prop :=
  ∀ inner, inner <:+ reversed → after.namedOrigin? root inner = before.namedOrigin? root inner

/-- No name that a module imports comes to stand for something new. -/
def Tree.KeepsImports (before after : Tree) (root : Location) : Prop :=
  ∀ name ∈ Node.importNames before, before.FindsAgain after root (componentsOf name)

namespace Tree.SameSources

theorem parent_notMem_append {name : String} (hp : ".." ∉ directory) (hn : isSourceName name) :
    ".." ∉ directory ++ [name] := by
  simp [hp, Ne.symm (ne_parent_of_isSourceName hn)]

/-- What was found for a name is found again. -/
theorem searchModule_eq (h : before.SameSources after) (hl : before.isLinkFree)
    (hl' : after.isLinkFree) (hp : ".." ∉ directory) (hn : IsComponent name)
    (hs : searchModule before directory name ≠ none) :
    searchModule after directory name = searchModule before directory name := by
  have hbase : ".." ∉ directory ++ [name] := by simp [hp, Ne.symm hn.ne_parent]
  have hsuffix := isSourceName_append hn.ne_empty
  have hpackage := h.isFile_eq hl hl' (parent_notMem_append hbase isSourceName_initialFile)
    isSourceName_initialFile
  have hfile := h.isFile_eq hl hl' (parent_notMem_append hp hsuffix) hsuffix
  simp only [searchModule] at hs ⊢
  rw [hpackage, hfile]
  split
  · rfl
  · rename_i hno
    split
    · rfl
    · -- neither a package nor a module file: a directory was found, and it is still there
      rename_i hno'
      rw [if_neg hno, if_neg hno'] at hs
      have hdirectory : before.isDirectory [] (.ofLocation (directory ++ [name])) := by
        by_contra hd
        exact hs (if_neg hd)
      have hdirectory' : after.isDirectory [] (.ofLocation (directory ++ [name])) :=
        (isDirectory_ofLocation_iff hl' hbase).mpr
          (h.hasDirectoryAt ((isDirectory_ofLocation_iff hl hbase).mp hdirectory))
      rw [if_pos hdirectory, if_pos hdirectory']

/-- What is found is evaluated to the same body. -/
theorem body_eq (h : before.SameSources after) (hl : before.isLinkFree) (hl' : after.isLinkFree)
    (hp : ".." ∉ directory) (hn : '.' ∉ name.toList)
    (hs : searchModule before directory name = some origin) :
    origin.body after = origin.body before := by
  have hfile {place : Location} (hp : ".." ∉ place) (hf : origin.file? = some place) :
      origin.body after = origin.body before := by
    rw [ModuleOrigin.body_eq_bodyAt hl' hp hf, ModuleOrigin.body_eq_bodyAt hl hp hf, h.body]
  have hname := Ne.symm (ne_parent_of_dotFree hn)
  rcases searchModule_cases hs with rfl | rfl | rfl
  · have hinitial : ".." ≠ initialFile := by decide
    exact hfile (by simp [hp, hname, hinitial]) rfl
  · exact hfile (by simp [hp, Ne.symm (append_moduleSuffix_ne_parent name)]) rfl
  · rfl

end Tree.SameSources

namespace ModuleCache

/-- Where modules stand for the same in both trees, their directories are looked up alike. -/
theorem Sound.directoryOf_congr (h : Sound before root cache) (h' : Sound after root cache)
    (hn : reversed ≠ [] → IsModuleName reversed) :
    cache.directoryOf after root reversed = cache.directoryOf before root reversed := by
  induction reversed with
  | nil => rfl
  | cons name outer ih =>
    have hname := hn (List.cons_ne_nil name outer)
    unfold directoryOf
    rw [ih hname.tail]
    split
    · rfl
    · rename_i m hm
      split
      · rfl
      · rfl
      · rename_i old horigin
        have ho : cache.originOf? (dottedName (name :: outer)) = some (.bareDirectory old) := by
          rw [originOf?, hm, Option.map_some, horigin]
        cases hd : cache.directoryOf before root outer with
        | error fault => rfl
        | ok upper =>
          obtain ⟨parent, middle⟩ := upper
          obtain ⟨rfl, rfl⟩ := h.directoryOf_eq hname.tail hd
          have hs : searchModule before (root ++ outer.reverse) name = some (.bareDirectory old) :=
            h.namedOrigin? hname ho
          have hs' : searchModule after (root ++ outer.reverse) name = some (.bareDirectory old) :=
            h'.namedOrigin? hname ho
          simp only [Except.map, relocate, List.headD_cons, hs, hs']

/-- Modules can be evaluated where they are found. -/
theorem Sound.begin (h : Sound tree root cache) (hn : IsModuleName (name :: outer))
    (hd : cache.directoryOf tree root outer = .ok (directory, middle))
    (hnew : ¬ cache.has (dottedName (name :: outer)))
    (hs : searchModule tree directory name = some origin) :
    Sound tree root (cache.insert (dottedName (name :: outer)) ⟨origin, []⟩) :=
  Placed.begin h hnew ⟨name, outer, directory, hn, rfl, (Placed.directoryOf h hn.tail hd).1, hs⟩

end ModuleCache

section

variable (h : before.SameSources after) (hl : before.isLinkFree) (hl' : after.isLinkFree)
  (hr : ".." ∉ root)

open ModuleCache

/-- Imports that go the same way in both trees, from the same modules. -/
def ImportsAgain (before after : Tree) (root : Location) (depth : Nat) : Prop :=
  ∀ (cache : ModuleCache) (name : String), Sound before root cache → Sound after root cache →
    before.FindsAgain after root (componentsOf name) →
    importWithin after root depth cache name = importWithin before root depth cache name

theorem ImportsAgain.importEach {depth : Nat} (hone : ImportsAgain before after root depth)
    {names : List String} (hc : Sound before root cache) (hc' : Sound after root cache)
    (hn : ∀ name ∈ names, before.FindsAgain after root (componentsOf name)) :
    Importer.importEach (importWithin after root depth) cache names =
      Importer.importEach (importWithin before root depth) cache names := by
  induction names generalizing cache with
  | nil => rfl
  | cons name rest ih =>
    obtain ⟨hname, hrest⟩ := List.forall_mem_cons.mp hn
    have hfirst := hone cache name hc hc' hname
    have hsound := hc.importWithin depth name
    have hsound' := hc'.importWithin depth name
    rw [hfirst] at hsound'
    unfold Importer.importEach
    rw [hfirst]
    generalize importWithin before root depth cache name = imported at hsound hsound' ⊢
    obtain ⟨result, loaded⟩ := imported
    cases result with
    | error fault => rfl
    | ok m => exact ih hsound hsound' hrest

include h hl hl' hr

theorem ImportsAgain.loadFrom (hi : before.KeepsImports after root) {depth : Nat}
    (hone : ImportsAgain before after root depth) (hc : Sound before root cache)
    (hc' : Sound after root cache) (hn : IsModuleName (name :: outer))
    (hnew : ¬ cache.has (dottedName (name :: outer)))
    (hd : cache.directoryOf before root outer = .ok (directory, cache))
    (hf : before.FindsAgain after root (name :: outer)) :
    cache.loadFrom after (importWithin after root depth) directory name outer =
      cache.loadFrom before (importWithin before root depth) directory name outer := by
  obtain ⟨rfl, -⟩ := hc.directoryOf_eq hn.tail hd
  have hs : searchModule after (root ++ outer.reverse) name =
      searchModule before (root ++ outer.reverse) name := hf _ List.suffix_rfl
  have hd' := (hc.directoryOf_congr hc' hn.tail).trans hd
  unfold ModuleCache.loadFrom
  simp only [hs]
  cases ho : searchModule before (root ++ outer.reverse) name with
  | none => rfl
  | some origin =>
    have hparent : ".." ∉ root ++ outer.reverse := by
      intro hm
      rcases List.mem_append.mp hm with hm | hm
      · exact hr hm
      · exact ne_parent_of_dotFree (hn.dotFree _ (List.mem_cons_of_mem name
          (List.mem_reverse.mp hm))) rfl
    have hbody := h.body_eq hl hl' hparent (hn.dotFree name List.mem_cons_self) ho
    have himports : ∀ imported ∈ (origin.body before).imports,
        before.FindsAgain after root (componentsOf imported) := by
      intro imported hm
      rcases origin.body_mem_bodies before with hempty | hmem
      · rw [hempty] at hm
        cases hm
      · exact hi imported (List.mem_flatMap.mpr ⟨_, hmem, hm⟩)
    have heach := hone.importEach (hc.begin hn hd hnew ho)
      (hc'.begin hn hd' hnew (hs.trans ho)) himports
    simp only [ModuleBody.evaluate, hbody, heach]

theorem ImportsAgain.loadModule (hi : before.KeepsImports after root) {depth : Nat}
    (hone : ImportsAgain before after root depth) (hc : Sound before root cache)
    (hc' : Sound after root cache) (hn : IsModuleName reversed)
    (hf : before.FindsAgain after root reversed) :
    cache.loadModule after root (importWithin after root depth) reversed =
      cache.loadModule before root (importWithin before root depth) reversed := by
  induction reversed with
  | nil => rfl
  | cons name outer ih =>
    unfold ModuleCache.loadModule
    cases hm : cache.get? (dottedName (name :: outer)) with
    | some m => rfl
    | none =>
      by_cases hne : outer = []
      · subst hne
        exact hone.loadFrom h hl hl' hr hi hc hc' hn (by simp [Table.has_eq_isSome, hm]) rfl hf
      · have hup := ih (hn.tail hne) fun inner hs => hf inner (hs.trans (List.suffix_cons name outer))
        have hsound := hc.loadModule depth (hn.tail hne)
        have hsound' := hc'.loadModule depth (hn.tail hne)
        rw [hup] at hsound'
        simp only [List.isEmpty_iff, hne, if_false, hup]
        generalize cache.loadModule before root (importWithin before root depth) outer = first
          at hsound hsound' ⊢
        obtain ⟨result, loaded⟩ := first
        cases result with
        | error fault => rfl
        | ok package =>
          dsimp only
          cases hagain : loaded.get? (dottedName (name :: outer)) with
          | some m => rfl
          | none =>
            dsimp only
            split
            · rfl
            · rw [hsound.directoryOf_congr hsound' hn.tail]
              cases hd : loaded.directoryOf before root outer with
              | error fault => rfl
              | ok upper =>
                obtain ⟨directory, moved⟩ := upper
                obtain ⟨-, rfl⟩ := hsound.directoryOf_eq hn.tail hd
                exact hone.loadFrom h hl hl' hr hi hsound hsound' hn
                  (by simp [Table.has_eq_isSome, hagain]) hd hf

/-- However deep imports go, they go as before. -/
theorem importsAgain (hi : before.KeepsImports after root) (depth : Nat) :
    ImportsAgain before after root depth := by
  induction depth with
  | zero => exact fun _ _ _ _ _ => rfl
  | succ depth ih =>
    intro cache name hc hc' hf
    rcases importWithin_cases before root depth name with ⟨hbad, he⟩ | ⟨hn, he⟩
    · rcases importWithin_cases after root depth name with ⟨-, he'⟩ | ⟨hn, -⟩
      · rw [he, he']
      · exact absurd hn hbad
    · rcases importWithin_cases after root depth name with ⟨hbad, -⟩ | ⟨-, he'⟩
      · exact absurd hn hbad
      · rw [he, he']
        exact ih.loadModule h hl hl' hr hi hc hc' hn hf

/-- A module is imported as before, if it was found and no import comes to stand for something
new. -/
theorem importNamed_eq (hi : before.KeepsImports after root) (hc : Sound before root cache)
    (hc' : Sound after root cache) (hf : before.FindsAgain after root (componentsOf moduleName)) :
    cache.importNamed after root moduleName = cache.importNamed before root moduleName := by
  have hdepth : after.importDepth = before.importDepth := by
    simp only [Tree.importDepth, h.importNames]
  rw [importNamed, importNamed, hdepth]
  exact importsAgain h hl hl' hr hi before.importDepth cache moduleName hc hc' hf

end

/-- On each step of the way to the module of a source file there is something: a directory of the
file, or the file itself. -/
theorem searchModule_ne_none_of_file_below {file : Location} (hl : tree.isLinkFree)
    (hp : ".." ∉ file) (hf : tree.HasFileAt file)
    (hs : isSourceName (file.getLast?.getD ""))
    (hm : moduleName? file root = .ok (some moduleName)) :
    ∀ name outer, name :: outer <:+ componentsOf moduleName →
      searchModule tree (root ++ outer.reverse) name ≠ none := by
  obtain ⟨directories, last, rfl, hcomponents, -⟩ := components_of_moduleName? hm
  simp only [List.getLast?_concat, Option.getD_some] at hs
  intro name outer hsuffix
  rw [hcomponents, ← List.reverse_prefix, List.reverse_reverse, List.reverse_cons] at hsuffix
  have hdirectory (more : List String) (hd : directories = outer.reverse ++ [name] ++ more) :
      searchModule tree (root ++ outer.reverse) name ≠ none := by
    subst hd
    obtain ⟨content, body, ha⟩ := hf
    have hsplit : root ++ (outer.reverse ++ [name] ++ more) ++ [last] =
        root ++ outer.reverse ++ [name] ++ (more ++ [last]) := by simp
    rw [hsplit] at ha hp
    exact searchModule_ne_none_of_directory hl (fun hm => hp (List.mem_append_left _ hm))
      (Node.directory_of_at?_append (by simp) ha)
  by_cases hinit : Path.stemOf last = "__init__"
  · obtain ⟨more, hmore⟩ := hsuffix
    exact hdirectory more (by simpa [dropInit, hinit] using hmore.symm)
  · have hparts : dropInit (directories ++ [Path.stemOf last]) =
        directories ++ [Path.stemOf last] := by simp [dropInit, hinit]
    rw [hparts, List.prefix_concat_iff] at hsuffix
    rcases hsuffix with heq | ⟨more, hmore⟩
    · obtain ⟨houter, hname⟩ := List.append_inj' heq rfl
      rw [List.singleton_inj] at hname
      have hlast := eq_stemOf_append (of_decide_eq_true hs)
      rw [hlast, ← houter, ← hname] at hf hp
      exact searchModule_ne_none_of_file hl hp hf
    · exact hdirectory more hmore.symm

/-- The module of a source file, and all packages on the way to it, are found as before. -/
theorem Tree.SameSources.findsAgain_of_file {file : Location} (h : before.SameSources after)
    (hl : before.isLinkFree) (hl' : after.isLinkFree) (hr : ".." ∉ root) (hp : ".." ∉ file)
    (hf : before.HasFileAt file) (hs : isSourceName (file.getLast?.getD ""))
    (hm : moduleName? file root = .ok (some moduleName)) :
    before.FindsAgain after root (componentsOf moduleName) := by
  obtain ⟨directories, last, -, -, -, hcomponents⟩ := components_of_moduleName? hm
  intro inner hi
  cases inner with
  | nil => rfl
  | cons name outer =>
    have hfound := searchModule_ne_none_of_file_below hl hp hf hs hm name outer hi
    refine h.searchModule_eq hl hl' ?_ (hcomponents name (hi.subset List.mem_cons_self)) hfound
    intro hparent
    rcases List.mem_append.mp hparent with hparent | hparent
    · exact hr hparent
    · exact (hcomponents _ (hi.subset (List.mem_cons_of_mem name
        (List.mem_reverse.mp hparent)))).ne_parent rfl

end SymbolExport
