import SymbolExport.Proofs.ExportFrame

/-!
The file of the declarations. It stands beside the module under a name of its own, which depends on
the module's name up to its last extension alone, so an export that writes both writes two files.
-/
namespace SymbolExport

/-- A name that is cut at its last dot, with something on both sides of it. -/
structure HasExtension (name stem extension : String) : Prop where
  cut : name = stem ++ "." ++ extension
  stem_ne : stem ≠ ""
  extension_ne : extension ≠ ""
  dot_notMem : '.' ∉ extension.toList

/-- What a name is without its last extension; all of it if there is none. -/
def HasStem (name stem : String) : Prop :=
  (∃ extension, HasExtension name stem extension) ∨
    stem = name ∧ ∀ front extension, ¬ HasExtension name front extension

/-- Names that are the same but for their last extensions. -/
def DifferInExtension (name other : String) : Prop :=
  ∃ stem, HasStem name stem ∧ HasStem other stem

variable {p q d : Path} {name stem extension : String}

theorem HasExtension.name_ne (h : HasExtension name stem extension) : name ≠ "" := by
  rintro rfl
  have hcut := congrArg String.toList h.cut
  simp at hcut

theorem HasExtension.stemOf_eq (h : HasExtension name stem extension) : Path.stemOf name = stem := by
  have hcut : name = String.ofList (stem.toList ++ '.' :: extension.toList) := by
    rw [h.cut, ← String.toList_inj]
    simp
  have hstem : stem.toList ≠ [] := by simpa using h.stem_ne
  have hextension : extension.toList ≠ [] := by simpa using h.extension_ne
  rw [hcut, Path.stemOf, Path.splitName_ofList hstem hextension h.dot_notMem, String.ofList_toList]

/-- A name is cut only at a dot that makes an extension. -/
theorem Path.splitName_snd (name : String) : (splitName name).2 = [] ∨
    ∃ extension, (splitName name).2 = '.' :: extension ∧ (splitName name).1 ≠ [] ∧
      extension ≠ [] ∧ '.' ∉ extension := by
  unfold splitName
  dsimp only
  split
  · split
    · exact Or.inl rfl
    · rename_i hsides
      simp only [Bool.or_eq_true, List.isEmpty_iff, not_or] at hsides
      refine Or.inr ⟨_, rfl, by simpa using hsides.2, by simpa using hsides.1, ?_⟩
      intro hdot
      have hno := List.mem_takeWhile_imp (List.mem_reverse.mp hdot)
      simp at hno
  · exact Or.inl rfl

theorem Path.stemOf_of_bare (h : ∀ front extension, ¬ HasExtension name front extension) :
    stemOf name = name := by
  have happend := splitName_append name
  rcases splitName_snd name with hnone | ⟨extension, hcut, hstem, hne, hdot⟩
  · rw [hnone, List.append_nil] at happend
    rw [stemOf, happend, String.ofList_toList]
  · refine absurd ⟨?_, ?_, ?_, ?_⟩ (h (stemOf name) (String.ofList extension))
    · rw [← String.toList_inj, ← happend, hcut]
      simp [stemOf]
    · simpa [stemOf] using hstem
    · simpa using hne
    · simpa using hdot

theorem HasStem.stemOf_eq (h : HasStem name stem) : Path.stemOf name = stem := by
  rcases h with ⟨extension, h⟩ | ⟨rfl, hbare⟩
  · exact h.stemOf_eq
  · exact Path.stemOf_of_bare hbare

theorem HasStem.stem_ne (h : HasStem name stem) (hn : name ≠ "") : stem ≠ "" := by
  rcases h with ⟨extension, h⟩ | ⟨rfl, -⟩
  · exact h.stem_ne
  · exact hn

theorem HasStem.name_ne (h : HasStem name stem) (hs : stem ≠ "") : name ≠ "" := by
  rcases h with ⟨extension, h⟩ | ⟨rfl, -⟩
  · exact h.name_ne
  · exact hs

/-- A path with a name is its parent and the name. -/
theorem Path.eq_child_parent (h : p.name ≠ "") : p = p.parent.child p.name := by
  obtain ⟨anchor, parts⟩ := p
  rcases List.eq_nil_or_concat' parts with rfl | ⟨front, last, rfl⟩
  · exact absurd rfl h
  · simp [Path.child, Path.parent, Path.name]

/-- Whatever a name is, its declarations stand in the same directory. -/
theorem declarationPath?_child (directory : Path) (name : String) :
    declarationPath? (directory.child name) =
      some (directory.child (Path.stemOf name ++ declarationSuffix)) := by
  simp [declarationPath?, Path.withName?, Path.child, Path.stem, Path.name]

theorem Path.parent_child (directory : Path) (name : String) :
    (directory.child name).parent = directory := by
  simp [Path.parent, Path.child]

theorem Path.name_child (directory : Path) (name : String) :
    (directory.child name).name = name := by
  simp [Path.name, Path.child]

/-- The place of the declarations of a path with a name. -/
theorem exists_declarationPath? (h : p.name ≠ "") : ∃ d, declarationPath? p = some d ∧
    d.parent = p.parent ∧ d.name = Path.stemOf p.name ++ declarationSuffix := by
  have hd := declarationPath?_child p.parent p.name
  rw [← Path.eq_child_parent h] at hd
  exact ⟨_, hd, Path.parent_child _ _, Path.name_child _ _⟩

theorem declarationPath?_ne (h : declarationPath? p = some d) : d ≠ p := by
  rintro rfl
  exact (declarationPath?_eq_some h []).2 rfl

/-- Paths that differ in the extensions of their names alone have the same declarations. -/
theorem declarationPath?_congr (hne : p.name ≠ "") (hparent : q.parent = p.parent)
    (hname : DifferInExtension p.name q.name) : declarationPath? q = declarationPath? p := by
  obtain ⟨stem, hp, hq⟩ := hname
  have hother : q.name ≠ "" := hq.name_ne (hp.stem_ne hne)
  rw [Path.eq_child_parent hne, Path.eq_child_parent hother, hparent,
    declarationPath?_child, declarationPath?_child, hp.stemOf_eq, hq.stemOf_eq]

namespace Exporter

variable {x : Exporter} {o : ExportOptions} {w : World} {r : ExportReport} {entries : ExportTable}
  {texts : List (Path × List Char)}

/-- The paths that an export tells of are those of the texts that it has written. -/
theorem exists_texts_of_run (h : (x.run o w).1 = .ok r) :
    ∃ texts, x.texts? o r.entries = some texts ∧ r.written = texts.map Prod.fst := by
  rcases run_cases x o w with ⟨failure, -, hrun⟩ | ⟨report, hc, hrun⟩
  · rw [hrun] at h
    cases h
  · have hwrite : x.writeReport o report (x.collect o w).2 = (.ok r, (x.run o w).2) := by
      rw [← hrun, ← h]
    obtain ⟨texts, htexts, -, rfl⟩ := writeReport_eq_ok_iff.mp hwrite
    have hnone := written_of_collect hc
    exact ⟨texts, htexts, by simp [hnone]⟩

/-- Without entries nothing is written; with them, and if declarations are asked for, two files. -/
theorem written_of_run_declarations (h : (x.run o w).1 = .ok r) (he : o.emitDeclarations) :
    if r.entries = [] then r.written = []
    else ∃ d, declarationPath? o.outputPath = some d ∧ r.written = [o.outputPath, d] := by
  obtain ⟨texts, htexts, hwritten⟩ := exists_texts_of_run h
  unfold texts? at htexts
  split
  · rename_i hnone
    rw [if_pos (by simpa using hnone)] at htexts
    cases htexts
    exact hwritten
  · rename_i hne
    rw [if_neg (by simpa using hne)] at htexts
    obtain ⟨text, -, htexts⟩ := Option.bind_eq_some_iff.mp htexts
    rw [if_pos he] at htexts
    obtain ⟨d, hd, rfl⟩ := Option.map_eq_some_iff.mp htexts
    exact ⟨d, hd, hwritten⟩

end Exporter

/-- The declarations of a module stand beside it under a name that ends in their suffix and is not
the module's own, and that does not depend on the module's last extension. So an export with
declarations that writes at all writes two paths, which never lead to one place. -/
theorem declarations_beside_module :
    (∀ p : Path, p.name ≠ "" → ∃ d, declarationPath? p = some d ∧ d.parent = p.parent ∧
      ".d.ts".toList <:+ d.name.toList ∧ d ≠ p ∧
      ∀ q : Path, q.parent = p.parent → DifferInExtension p.name q.name →
        declarationPath? q = some d) ∧
    ∀ (x : Exporter) (o : ExportOptions) (w : World) (r : ExportReport),
      (x.run o w).1 = .ok r → o.emitDeclarations →
      if r.entries = [] then r.written = []
      else ∃ d, declarationPath? o.outputPath = some d ∧ r.written = [o.outputPath, d] ∧
        d ≠ o.outputPath ∧ ∀ cwd, o.outputPath.place cwd ≠ d.place cwd := by
  constructor
  · intro p hp
    obtain ⟨d, hd, hparent, hname⟩ := exists_declarationPath? hp
    refine ⟨d, hd, hparent, ?_, declarationPath?_ne hd, ?_⟩
    · rw [hname, String.toList_append]
      exact List.suffix_append _ _
    · intro q hq hdiffer
      exact (declarationPath?_congr hp hq hdiffer).trans hd
  · intro x o w r hr he
    have hwritten := Exporter.written_of_run_declarations hr he
    split
    · rename_i hnone
      rwa [if_pos hnone] at hwritten
    · rename_i hne
      rw [if_neg hne] at hwritten
      obtain ⟨d, hd, hpaths⟩ := hwritten
      exact ⟨d, hd, hpaths, declarationPath?_ne hd, fun cwd => (declarationPath?_eq_some hd cwd).2⟩

namespace World

theorem declarations_beside_module_enums :
    (Path.ofString "js/.enums.d.ts").name ≠ "" ∧
    (Path.ofString "js/.enums.d.mjs").parent = (Path.ofString "js/.enums.d.ts").parent ∧
    DifferInExtension (Path.ofString "js/.enums.d.ts").name (Path.ofString "js/.enums.d.mjs").name ∧
    (∃ d, declarationPath? (.ofString "js/.enums.d.ts") = some d ∧
      declarationPath? (.ofString "js/.enums.d.mjs") = some d ∧
      d = .ofString "js/.enums.d.d.ts" ∧ d ≠ .ofString "js/.enums.d.ts") ∧
    ∃ r after d, exporterOfP.run optionsOfD (packageOfA [] [] []) = (.ok r, after) ∧
      r.entries ≠ [] ∧ declarationPath? optionsOfD.outputPath = some d ∧
      r.written = [optionsOfD.outputPath, d] ∧ d ≠ optionsOfD.outputPath := by
  have hname : (Path.ofString "js/.enums.d.ts").name = ".enums.d.ts" := by cbv
  have hother : (Path.ofString "js/.enums.d.mjs").name = ".enums.d.mjs" := by cbv
  have hne : (Path.ofString "js/.enums.d.ts").name ≠ "" := by simp [hname]
  have hparent : (Path.ofString "js/.enums.d.mjs").parent =
      (Path.ofString "js/.enums.d.ts").parent := by cbv
  have hdiffer : DifferInExtension (Path.ofString "js/.enums.d.ts").name
      (Path.ofString "js/.enums.d.mjs").name := by
    rw [hname, hother]
    exact ⟨".enums.d", Or.inl ⟨"ts", by decide, by decide, by decide, by decide⟩,
      Or.inl ⟨"mjs", by decide, by decide, by decide, by decide⟩⟩
  obtain ⟨hplace, hwrites⟩ := declarations_beside_module
  obtain ⟨d, hd, -, -, hapart, hsame⟩ := hplace _ hne
  obtain ⟨r, after, hrun, hentries⟩ := exists_run_packageOfD
  have hreport : (exporterOfP.run optionsOfD (packageOfA [] [] [])).1 = .ok r := by rw [hrun]
  have hwritten := hwrites exporterOfP optionsOfD (packageOfA [] [] []) r hreport rfl
  rw [if_neg hentries] at hwritten
  obtain ⟨d', hd', hpaths, hapart', -⟩ := hwritten
  have hresult : declarationPath? (.ofString "js/.enums.d.ts") =
      some (.ofString "js/.enums.d.d.ts") := by decide +kernel
  exact ⟨hne, hparent, hdiffer,
    ⟨d, hd, hsame _ hparent hdiffer, Option.some.inj (hd.symm.trans hresult), hapart⟩,
    r, after, d', hrun, hentries, hd', hpaths, hapart'⟩

end World

end SymbolExport
