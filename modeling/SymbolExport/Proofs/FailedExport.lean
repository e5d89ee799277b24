import SymbolExport.Proofs.ExportFrame

/-!
The files of an export that fails. Up to the bytes of the module nothing is lost by a failure; after
them the export is stopped only if the declarations cannot be written to their place, and the module
stays. A text that cannot be encoded is an exception: its file has been emptied by then.
-/
namespace SymbolExport

open SymbolExport.Text

/-- The bytes of the file at a place; none if no file stands there. -/
def Tree.contentAt? (tree : Tree) (place : Location) : Option (List UInt8) :=
  match tree.surface place with
  | some (some (content, _)) => some content
  | _ => none

/-- The ways in which writing a report with declarations fails. -/
inductive Exporter.WriteFailure (x : Exporter) (o : ExportOptions) (report : ExportReport)
    (w : World) : ExportFailure → World → Prop
  | unrendered {e : LiteralError} (ht : renderModule report.entries = .error e) :
      x.WriteFailure o report w (.literal e) w
  | unwritten {text : List Char} {failure : Failure} {after : World}
      (ht : renderModule report.entries = .ok text)
      (hw : w.writeFile o.outputPath text = (.error failure, after)) :
      x.WriteFailure o report w (.failed failure) after
  | unnamed {text : List Char} {after : World} (ht : renderModule report.entries = .ok text)
      (hw : w.writeFile o.outputPath text = (.ok (), after))
      (hd : declarationPath? o.outputPath = none) :
      x.WriteFailure o report w (.failed (.emptyName ⟨o.outputPath⟩)) after
  | undeclared {text : List Char} {path : Path} {failure : Failure} {middle after : World}
      (ht : renderModule report.entries = .ok text)
      (hw : w.writeFile o.outputPath text = (.ok (), middle))
      (hd : declarationPath? o.outputPath = some path)
      (hw' : middle.writeFile path (renderDeclarations x.isReadonly report.entries) =
        (.error failure, after)) :
      x.WriteFailure o report w (.failed failure) after

/-- Why a file cannot be written to a place: a directory stands there, or the system refuses it. -/
def World.Blocks (w : World) (place : Location) (fault : PathFault) : Prop :=
  fault = .isDirectory ∧ w.tree.HasDirectoryAt place ∨ w.refusal? place = some fault

/-- What an export with declarations leaves when it fails after the module is written: the module is
there, and the declarations are as before, since something blocks their place. -/
structure Exporter.LeavesModule (x : Exporter) (o : ExportOptions) (w : World) (e : ExportFailure)
    (after : World) (report : ExportReport) (text : List Char) (path : Path) : Prop where
  collected : (x.collect o w).1 = .ok report
  rendered : renderModule report.entries = .ok text
  named : declarationPath? o.outputPath = some path
  failure : ∃ fault, e = .failed (.system fault path) ∧ after.Blocks (path.place w.cwd) fault
  module : after.tree.contentAt? (o.outputPath.place w.cwd) = some (encodeUtf8 text)
  declarations : after.tree.contentAt? (path.place w.cwd) = w.tree.contentAt? (path.place w.cwd)

/-- What an export leaves when one of its texts cannot be encoded: the file of that text is empty. -/
structure ExportOptions.LeavesEmpty (o : ExportOptions) (w : World) (e : ExportFailure)
    (after : World) (path : Path) (text : List Char) (message : String) : Prop where
  target : path ∈ o.targets
  unencodable : w.encodeFault? text = some message
  failure : e = .failed (.unencodable message)
  file : after.tree.contentAt? (path.place w.cwd) = some []

variable {w w' middle after : World} {x : Exporter} {o : ExportOptions} {report r : ExportReport}
  {before later : Tree} {files ways : Location → Prop} {path p : Path} {text : List Char}
  {q : Location} {e : ExportFailure} {bytes : List UInt8}

namespace Tree

/-- A directory that is made takes no file away. -/
theorem Growth.contentAt?_eq (h : before.Growth later files ways q) (hf : ¬ files q) :
    later.contentAt? q = before.contentAt? q := by
  unfold contentAt?
  cases h with
  | kept h => rw [h]
  | made _ hb ha => rw [ha, hb]
  | written hfile _ _ => exact absurd hfile hf

end Tree

theorem World.HasBytes.contentAt?_eq (h : w.HasBytes path bytes) :
    w.tree.contentAt? (path.place w.cwd) = some bytes := by
  obtain ⟨body, ha⟩ := h.file
  simp only [Tree.contentAt?, Tree.surface_eq_file_iff.mpr ha]

/-- A path with a text has a last name, for a directory stands where a path starts. -/
theorem World.HasText.declarationPath?_ne_none (h : w.HasText path text) :
    declarationPath? path ≠ none := by
  intro hd
  have hparts : path.parts = [] := by
    unfold declarationPath? Path.withName? at hd
    split at hd
    · rename_i hempty
      exact List.isEmpty_iff.mp hempty
    · cases hd
  obtain ⟨body, hfile⟩ := h.file
  have hparent : path.parent = path := by
    unfold Path.parent
    rw [hparts, List.dropLast_nil, ← hparts]
  obtain ⟨entries, hdirectory⟩ := h.way _ (Tree.crosses_place path.parent w.cwd)
  rw [hparent, hfile] at hdirectory
  cases hdirectory

namespace Exporter

theorem writeFailure_of_writeReport (hemit : o.emitDeclarations)
    (h : x.writeReport o report w = (.error e, after)) : x.WriteFailure o report w e after := by
  unfold writeReport at h
  split at h
  · cases h
  · split at h
    · rename_i literal ht
      cases h
      exact .unrendered ht
    · rename_i text ht
      split at h
      · rename_i failure last hw
        cases h
        exact .unwritten ht hw
      · rename_i middle hw
        unfold writeDeclarations at h
        split at h
        · rename_i hd
          cases h
          exact .unnamed ht hw hd
        · rename_i path hd
          dsimp only at h
          split at h
          · rename_i failure last hw'
            cases h
            exact .undeclared ht hw hd hw'
          · cases h

theorem grows_of_writeFailure (hl : w.tree.isLinkFree) (hcwd : w.tree.HasDirectoryAt w.cwd)
    (hemit : o.emitDeclarations) (h : x.WriteFailure o report w e after) :
    w.tree.Grows after.tree (fun _ => False) (o.outputPath.parent.Crosses w.cwd) ∨
      (∃ text path fault, renderModule report.entries = .ok text ∧
        declarationPath? o.outputPath = some path ∧ e = .failed (.system fault path) ∧
        after.Blocks (path.place w.cwd) fault ∧ after.HasText o.outputPath text ∧
        w.tree.Grows after.tree (· = o.outputPath.place w.cwd)
          (o.outputPath.parent.Crosses w.cwd)) ∨
      ∃ path text message, o.LeavesEmpty w e after path text message := by
  cases h with
  | unrendered ht => exact Or.inl (.refl _)
  | unwritten ht hw =>
    rename_i text failure
    have hrestores := World.restores_writeFile w o.outputPath text
    rw [hw] at hrestores
    obtain hgrows | ⟨message, hfault, rfl, -, hempty⟩ := World.grows_of_writeFile_error hl hcwd hw
    · exact Or.inl hgrows
    · have hfile := hempty.contentAt?_eq
      rw [hrestores.cwd] at hfile
      exact Or.inr (Or.inr ⟨_, text, message, List.mem_cons_self, hfault, rfl, hfile⟩)
  | unnamed ht hw hd =>
    obtain ⟨-, htext⟩ := World.grows_of_writeFile_ok hl hcwd hw
    exact absurd hd htext.declarationPath?_ne_none
  | undeclared ht hw hd hw' =>
    rename_i text path failure middle
    obtain ⟨hgrows, htext⟩ := World.grows_of_writeFile_ok hl hcwd hw
    have hrestores := World.restores_writeFile w o.outputPath text
    rw [hw] at hrestores
    have hl' := hrestores.linkFree hl
    have hway : ∀ q, path.parent.Crosses middle.cwd q → middle.tree.HasDirectoryAt q := by
      rw [declarationPath?_parent hd]
      exact htext.way
    obtain ⟨bytes, hbytes⟩ | ⟨message, hfault, rfl, hempty⟩ := World.writeFile_error_cases hw'
    · rw [World.writeBytes_of_way hl' hway] at hbytes
      split at hbytes
      · cases hbytes
      · rename_i fault hfault
        cases hbytes
        have hblocked := Tree.write_eq_error hl' (World.isPassable_of_way hway) hfault
        rw [hrestores.cwd] at hblocked
        exact Or.inr (Or.inl ⟨text, path, fault, ht, hd, rfl, hblocked, htext, hgrows⟩)
    · have hcwd' : middle.tree.HasDirectoryAt middle.cwd := by
        rw [hrestores.cwd]
        exact hgrows.hasDirectoryAt hl hl' hcwd
      have hlast := World.restores_writeBytes middle path []
      rw [hempty] at hlast
      have hfile := (World.grows_of_writeBytes_ok hl' hcwd' hempty).2.contentAt?_eq
      rw [hlast.cwd, hrestores.cwd] at hfile
      rw [hrestores.encodeFault?] at hfault
      have htarget : path ∈ o.targets := by simp [ExportOptions.targets, hemit, hd]
      exact Or.inr (Or.inr ⟨path, _, message, htarget, hfault, rfl, hfile⟩)

/-- What an export with declarations can leave of its two files when it fails: both as they were, the
module and no declarations, or an empty file for a text that cannot be encoded. -/
theorem run_leaves (hl : w.tree.isLinkFree) (hcwd : w.tree.HasDirectoryAt w.cwd)
    (hemit : o.emitDeclarations) (hr : x.run o w = (.error e, after)) :
    (∀ p ∈ o.targets,
        after.tree.contentAt? (p.place w.cwd) = w.tree.contentAt? (p.place w.cwd)) ∨
      (∃ report text path, x.LeavesModule o w e after report text path) ∨
      ∃ path text message, o.LeavesEmpty w e after path text message := by
  obtain ⟨hkeeps, htree⟩ := World.keeps_collect x o w
  rcases run_cases x o w with ⟨failure, -, hrun⟩ | ⟨report, hc, hrun⟩
  · left
    rw [hrun] at hr
    cases hr
    rw [htree]
    intro p _
    rfl
  · rw [hrun] at hr
    have hfailure := writeFailure_of_writeReport hemit hr
    have hafter := (keeps_run x o w).1.cwd
    rw [hrun, hr] at hafter
    rcases grows_of_writeFailure (by rwa [htree]) (by rwa [htree, hkeeps.cwd]) hemit hfailure with
      hgrows | ⟨text, path, fault, ht, hd, rfl, hblocked, htext, hgrows⟩ |
      ⟨path, text, message, htarget, hfault, hfailed, hfile⟩
    · left
      rw [htree] at hgrows
      intro p _
      exact (hgrows _).contentAt?_eq id
    · right
      left
      rw [htree, hkeeps.cwd] at hgrows
      rw [hkeeps.cwd] at hblocked
      refine ⟨report, text, path, hc, ht, hd, ⟨fault, rfl, hblocked⟩, ?_, ?_⟩
      · rw [← hafter]
        exact htext.contentAt?_eq
      · exact (hgrows _).contentAt?_eq (declarationPath?_eq_some hd w.cwd).2.symm
    · right
      right
      rw [hkeeps.encodeFault?] at hfault
      rw [hkeeps.cwd] at hfile
      exact ⟨path, text, message, htarget, hfault, hfailed, hfile⟩

end Exporter

namespace World

/-- A directory with the name of the declarations. -/
def directoryD : List (String × Node) := [("out.d.ts", .empty)]

theorem writeFile_outputOfD (text : List Char) (log : Log) :
    (packageOfA [] directoryD log).writeFile optionsOfD.outputPath text =
      (.ok (), packageOfA [] (directoryD ++ moduleBeside (encodeUtf8 text)) log) := by cbv

theorem writeFile_directoryD (content : List UInt8) (text : List Char) (log : Log) :
    (packageOfA [] (directoryD ++ moduleBeside content) log).writeFile
        (.ofLocation ["out.d.ts"]) text =
      (.error (.system .isDirectory (.ofLocation ["out.d.ts"])),
        packageOfA [] (directoryD ++ moduleBeside content) log) := by cbv

/-- The module is written before the directory is met. -/
theorem exists_run_directoryD :
    ∃ text log, renderModule (entriesOfA false) = .ok text ∧
      exporterOfP.run optionsOfD (packageOfA [] directoryD []) =
        (.error (.failed (.system .isDirectory (.ofLocation ["out.d.ts"]))),
          packageOfA [] (directoryD ++ moduleBeside (encodeUtf8 text)) log) := by
  have hentries : (ExportReport.ofResults (resultsOfA [] moduleB packageP false)).entries =
      entriesOfA false := rfl
  have hne : ExportReport.isEmpty (.ofResults (resultsOfA [] moduleB packageP false)) = false := rfl
  have hemit : optionsOfD.emitDeclarations = true := rfl
  have hpath : declarationPath? optionsOfD.outputPath = some (.ofLocation ["out.d.ts"]) := rfl
  have hdirectory : IsPlain directoryD :=
    ⟨rfl, by simp [directoryD, Node.tellsOwnFiles_directory_iff, Node.empty]⟩
  obtain ⟨text, htext, -⟩ := exists_renderModule_entriesOfA false
  obtain ⟨log, hrun⟩ := exists_run_optionsOfD hdirectory
  refine ⟨text, log, htext, ?_⟩
  rw [hrun]
  simp only [Exporter.writeReport, Exporter.writeDeclarations, hne, hentries, htext, hemit, hpath,
    writeFile_outputOfD, writeFile_directoryD, Bool.false_eq_true, if_false, if_true]

end World

end SymbolExport
