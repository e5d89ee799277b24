import SymbolExport.Proofs.UnitName

/-!
Files whose modules have the same name. Below one import root there is one such file for each
suffix, but for a package beside a module: `x/__init__` and `x` name the same module.
-/
namespace SymbolExport

open SymbolExport.Text

/-- The components of the name of a module: the directories, and the stem if it is not
`__init__`. -/
def namesModule (directories : List String) (last : String) : List String :=
  if Path.stemOf last = "__init__" then directories else directories ++ [Path.stemOf last]

/-- The first file is that of a package, and the second one has the name of the package's
directory. -/
def IsPackageBeside (extension : String) (package file : Location) : Prop :=
  ∃ directory name, package = directory ++ [name, "__init__" ++ extension] ∧
    file = directory ++ [name ++ extension]

variable {file other root : Location} {moduleName : String} {directories more : List String}
  {last final : String}

theorem dropInit_concat (directories : List String) (last : String) :
    dropInit (directories ++ [Path.stemOf last]) = namesModule directories last := by
  simp [dropInit, namesModule]

theorem suffix_ofLocation_concat (directory : Location) (last : String) :
    (Path.ofLocation (directory ++ [last])).suffix = Path.suffixOf last := by
  simp [Path.suffix, Path.name, Path.ofLocation]

/-- Names with the same stem and suffix are the same. -/
theorem eq_of_stemOf_eq (hstem : Path.stemOf last = Path.stemOf final)
    (hsuffix : Path.suffixOf last = Path.suffixOf final) : last = final := by
  rw [← Path.stemOf_append_suffixOf last, hstem, hsuffix, Path.stemOf_append_suffixOf]

/-- A stem of its own and `__init__` are the two ways to the same components. -/
theorem eq_or_package_of_namesModule (h : namesModule directories last = namesModule more final)
    (hsuffix : Path.suffixOf last = Path.suffixOf final) (root : Location) :
    root ++ directories ++ [last] = root ++ more ++ [final] ∨
      IsPackageBeside (Path.suffixOf last) (root ++ directories ++ [last])
        (root ++ more ++ [final]) ∨
      IsPackageBeside (Path.suffixOf last) (root ++ more ++ [final])
        (root ++ directories ++ [last]) := by
  have hlast := Path.stemOf_append_suffixOf last
  have hfinal := Path.stemOf_append_suffixOf final
  unfold namesModule at h
  by_cases hinit : Path.stemOf last = "__init__" <;>
    by_cases hinit' : Path.stemOf final = "__init__"
  · rw [if_pos hinit, if_pos hinit'] at h
    rw [h, eq_of_stemOf_eq (hinit.trans hinit'.symm) hsuffix]
    exact Or.inl rfl
  · rw [if_pos hinit, if_neg hinit'] at h
    refine Or.inr (Or.inl ⟨root ++ more, Path.stemOf final, ?_, ?_⟩)
    · rw [h, ← hinit, hlast]
      simp
    · rw [hsuffix, hfinal]
  · rw [if_neg hinit, if_pos hinit'] at h
    refine Or.inr (Or.inr ⟨root ++ directories, Path.stemOf last, ?_, ?_⟩)
    · rw [← h, ← hinit', hsuffix, hfinal]
      simp
    · rw [hlast]
  · rw [if_neg hinit, if_neg hinit'] at h
    obtain ⟨rfl, hstem⟩ := List.append_inj' h rfl
    rw [eq_of_stemOf_eq (List.singleton_inj.mp hstem) hsuffix]
    exact Or.inl rfl

theorem splitOn_eq_splitDots (cs : List Char) : cs.splitOn '.' = splitDots cs := by
  have hsplit := List.splitOn_intercalate '.' (fun _ => dot_notMem_splitDots) (splitDots_ne_nil cs)
  rwa [intercalate_splitDots] at hsplit

/-- A name that is split at its dots gives the names on the way from the root to the file. -/
theorem splitOn_moduleName? (h : moduleName? file root = .ok (some moduleName)) :
    ∃ directories last, file = root ++ directories ++ [last] ∧
      (moduleName.toList.splitOn '.').map String.ofList = namesModule directories last ∧
      ∀ name ∈ namesModule directories last, isIdentifier name.toList := by
  obtain ⟨directories, last, hfile, hdotted⟩ := dotted?_of_moduleName? h
  rw [dropInit_concat] at hdotted
  obtain ⟨-, hcomponents, -⟩ := componentsOf_dotted? hdotted
  obtain ⟨-, hidentifiers, -⟩ := dotted?_eq_some_iff.mp hdotted
  refine ⟨directories, last, hfile, ?_, hidentifiers⟩
  rw [splitOn_eq_splitDots]
  exact List.reverse_injective hcomponents

/-- Two files with one suffix whose modules have the same name are the same, or one is the package
beside the other; and the name says which names lead from the root to the file. -/
theorem eq_or_package_of_moduleName? (h : moduleName? file root = .ok (some moduleName))
    (h' : moduleName? other root = .ok (some moduleName))
    (hsuffix : (Path.ofLocation file).suffix = (Path.ofLocation other).suffix) :
    (file = other ∨ IsPackageBeside (Path.ofLocation file).suffix file other ∨
      IsPackageBeside (Path.ofLocation file).suffix other file) ∧
    ∃ directories last, file = root ++ directories ++ [last] ∧
      (moduleName.toList.splitOn '.').map String.ofList = namesModule directories last ∧
      ∀ name ∈ namesModule directories last, isIdentifier name.toList := by
  obtain ⟨directories, last, rfl, hsplit, hidentifiers⟩ := splitOn_moduleName? h
  obtain ⟨more, final, rfl, hsplit', -⟩ := splitOn_moduleName? h'
  rw [suffix_ofLocation_concat, suffix_ofLocation_concat] at hsuffix
  refine ⟨?_, directories, last, rfl, hsplit, hidentifiers⟩
  rw [suffix_ofLocation_concat]
  exact eq_or_package_of_namesModule (hsplit.symm.trans hsplit') hsuffix root

theorem eq_or_package_of_moduleName?_app :
    moduleName? ["src", "app", "__init__.py"] ["src"] = .ok (some "app") ∧
    moduleName? ["src", "app.py"] ["src"] = .ok (some "app") ∧
    (Path.ofLocation ["src", "app", "__init__.py"]).suffix =
      (Path.ofLocation ["src", "app.py"]).suffix ∧
    IsPackageBeside ".py" ["src", "app", "__init__.py"] ["src", "app.py"] := by
  have hdotted : dotted? ["app"] = some "app" := by decide +kernel
  have hpackage : moduleName? ["src", "app", "__init__.py"] ["src"] = .ok (some "app") := by
    have hnames : dropInit (["app"] ++ [Path.stemOf "__init__.py"]) = ["app"] := by
      decide +kernel
    rw [← hdotted, ← hnames]
    exact moduleName?_append ["src"] ["app"] "__init__.py"
  have hfile : moduleName? ["src", "app.py"] ["src"] = .ok (some "app") := by
    have hnames : dropInit ([] ++ [Path.stemOf "app.py"]) = ["app"] := by decide +kernel
    rw [← hdotted, ← hnames]
    exact moduleName?_append ["src"] [] "app.py"
  have hpy : (Path.ofLocation ["src", "app", "__init__.py"]).suffix = ".py" := by
    decide +kernel
  have hsuffix : (Path.ofLocation ["src", "app", "__init__.py"]).suffix =
      (Path.ofLocation ["src", "app.py"]).suffix := by
    decide +kernel
  have hshared := (eq_or_package_of_moduleName? hpackage hfile hsuffix).1
  rw [hpy] at hshared
  refine ⟨hpackage, hfile, hsuffix, (hshared.resolve_left (by simp)).resolve_right ?_⟩
  rintro ⟨directory, name, hp, -⟩
  simpa using congrArg List.getLast? hp

end SymbolExport
