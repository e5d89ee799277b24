import SymbolExport.Proofs.Footprint
import SymbolExport.Proofs.LaterRuns

/-!
The frame of an export. Whatever becomes of it, it changes the files that it is to write and makes
directories on the way to the output; if it does not come to writing, it changes nothing, and if it
succeeds, the files hold what is rendered.
-/
namespace SymbolExport

open SymbolExport.Text

/-- What may change from before an export to after it: no path disappears, the files that are not to
be written keep their content, and what is new are these files and directories that a proper
beginning of the output path names. -/
structure ExportOptions.Frames (o : ExportOptions) (before after : World) : Prop where
  kept : ∀ q, before.tree.at? q ≠ none → after.tree.at? q ≠ none
  file : ∀ q content body, (∀ p ∈ o.targets, p.place before.cwd ≠ q) →
    before.tree.at? q = some (.file content body) → after.tree.at? q = some (.file content body)
  new : ∀ q, before.tree.at? q = none → after.tree.at? q ≠ none →
    (after.tree.HasFileAt q ∧ ∃ p ∈ o.targets, p.place before.cwd = q) ∨
      (after.tree.HasDirectoryAt q ∧ ∃ front, front <+: o.outputPath.parts ∧
        front ≠ o.outputPath.parts ∧ q = Path.place ⟨o.outputPath.anchor, front⟩ before.cwd)

/-- An export that does not come to writing: it fails to collect, there are no entries, or they
cannot be rendered. -/
inductive Exporter.WritesNothing (x : Exporter) (o : ExportOptions) (w : World) : Prop
  | failed {failure : Failure} (hc : (x.collect o w).1 = .error failure)
  | empty {report : ExportReport} (hc : (x.collect o w).1 = .ok report) (he : report.isEmpty)
  | unrendered {report : ExportReport} {e : LiteralError} (hc : (x.collect o w).1 = .ok report)
      (hr : renderModule report.entries = .error e)

variable {w w' after : World} {x : Exporter} {o : ExportOptions} {report r : ExportReport}
  {texts : List (Path × List Char)} {path p : Path} {text : List Char} {cwd q : Location}

theorem declarationPath?_parent (h : declarationPath? path = some p) : p.parent = path.parent := by
  unfold declarationPath? Path.withName? at h
  split at h
  · cases h
  · cases h
    simp [Path.parent]

/-- Where a path goes through, if it is not where it starts, a proper beginning of it leads. -/
theorem Path.Crosses.exists_front (h : p.parent.Crosses cwd q) (hq : q ≠ p.start cwd) :
    ∃ front, front <+: p.parts ∧ front ≠ p.parts ∧ q = Path.place ⟨p.anchor, front⟩ cwd := by
  obtain ⟨front, hfront, hplace⟩ := h
  refine ⟨front, hfront.trans (List.dropLast_prefix _), ?_, hplace⟩
  rintro rfl
  have hlength := hfront.length_le
  have hnil : p.parts = [] := by
    rw [← List.length_eq_zero_iff]
    simp only [Path.parent, List.length_dropLast] at hlength
    omega
  rw [hnil] at hplace
  exact hq hplace

namespace World

theorem grows_writeFile (hl : w.tree.isLinkFree) (hcwd : w.tree.HasDirectoryAt w.cwd) (p : Path)
    (text : List Char) : w.tree.Grows (w.writeFile p text).2.tree (· = p.place w.cwd)
      (p.parent.Crosses w.cwd) := by
  cases h : w.writeFile p text with
  | mk result after =>
    cases result with
    | error failure =>
      obtain hgrows | ⟨-, -, -, hgrows, -⟩ := grows_of_writeFile_error hl hcwd h
      · exact hgrows.mono (by simp) fun _ => id
      · exact hgrows
    | ok => exact (grows_of_writeFile_ok hl hcwd h).1

/-- Where the process is stays a directory when a file is written. -/
theorem hasDirectoryAt_writeFile (hl : w.tree.isLinkFree) (hcwd : w.tree.HasDirectoryAt w.cwd)
    (p : Path) (text : List Char) :
    (w.writeFile p text).2.tree.HasDirectoryAt (w.writeFile p text).2.cwd := by
  have hrestores := restores_writeFile w p text
  rw [hrestores.cwd]
  exact (grows_writeFile hl hcwd p text).hasDirectoryAt hl (hrestores.linkFree hl) hcwd

/-- Both files have the same way, since the declarations stand beside the module. -/
theorem grows_writeReport (hl : w.tree.isLinkFree) (hcwd : w.tree.HasDirectoryAt w.cwd)
    (x : Exporter) (o : ExportOptions) (report : ExportReport) :
    w.tree.Grows (x.writeReport o report w).2.tree (fun q => ∃ p ∈ o.targets, p.place w.cwd = q)
      (o.outputPath.parent.Crosses w.cwd) := by
  have hmodule : ∀ q, q = o.outputPath.place w.cwd → ∃ p ∈ o.targets, p.place w.cwd = q := by
    rintro q rfl
    exact ⟨_, by simp [ExportOptions.targets], rfl⟩
  unfold Exporter.writeReport
  split
  · exact .refl _
  · split
    · exact .refl _
    · rename_i text _
      have hfirst := (grows_writeFile hl hcwd o.outputPath text).mono hmodule fun _ => id
      have hrestores := restores_writeFile w o.outputPath text
      have hcwd' := hasDirectoryAt_writeFile hl hcwd o.outputPath text
      generalize w.writeFile o.outputPath text = written at hfirst hrestores hcwd' ⊢
      obtain ⟨result, middle⟩ := written
      cases result with
      | error failure => exact hfirst
      | ok =>
        dsimp only
        split
        · rename_i hemit
          unfold Exporter.writeDeclarations
          split
          · exact hfirst
          · rename_i path hpath
            have hsecond := grows_writeFile (hrestores.linkFree hl) hcwd' path
              (renderDeclarations x.isReadonly report.entries)
            rw [hrestores.cwd, declarationPath?_parent hpath] at hsecond
            have hdeclarations : ∀ q, q = path.place w.cwd →
                ∃ p ∈ o.targets, p.place w.cwd = q := by
              rintro q rfl
              exact ⟨path, by simp [ExportOptions.targets, hemit, hpath], rfl⟩
            have hboth := hfirst.trans (hsecond.mono hdeclarations fun _ => id)
            dsimp only
            generalize middle.writeFile path _ = last at hboth ⊢
            obtain ⟨result, last⟩ := last
            cases result <;> exact hboth
        · exact hfirst

theorem grows_writeTexts (hl : w.tree.isLinkFree) (hcwd : w.tree.HasDirectoryAt w.cwd)
    (texts : List (Path × List Char)) : w.tree.Grows (w.writeTexts texts).2.tree
      (fun q => ∃ t ∈ texts, t.1.place w.cwd = q) (waysOf w.cwd texts) := by
  induction texts generalizing w with
  | nil => exact .refl _
  | cons t rest ih =>
    obtain ⟨path, text⟩ := t
    have hfile : ∀ q, q = path.place w.cwd →
        ∃ t ∈ (path, text) :: rest, t.1.place w.cwd = q := by
      rintro q rfl
      exact ⟨_, List.mem_cons_self, rfl⟩
    have hway : ∀ q, path.parent.Crosses w.cwd q → waysOf w.cwd ((path, text) :: rest) q := by
      intro q hq
      exact ⟨_, List.mem_cons_self, hq⟩
    have hfirst := (grows_writeFile hl hcwd path text).mono hfile hway
    have hrestores := restores_writeFile w path text
    have hcwd' := hasDirectoryAt_writeFile hl hcwd path text
    unfold writeTexts
    generalize w.writeFile path text = written at hfirst hrestores hcwd' ⊢
    obtain ⟨result, middle⟩ := written
    cases result with
    | error failure => exact hfirst
    | ok =>
      have hrest := ih (hrestores.linkFree hl) hcwd'
      rw [hrestores.cwd] at hrest
      refine hfirst.trans (hrest.mono ?_ ?_)
      · rintro q ⟨t, ht, hq⟩
        exact ⟨t, List.mem_cons_of_mem _ ht, hq⟩
      · rintro q ⟨t, ht, hq⟩
        exact ⟨t, List.mem_cons_of_mem _ ht, hq⟩

theorem restores_writeTexts (w : World) (texts : List (Path × List Char)) :
    w.Restores (w.writeTexts texts).2 := by
  induction texts generalizing w with
  | nil => exact .refl w
  | cons t rest ih =>
    obtain ⟨path, text⟩ := t
    have h := restores_writeFile w path text
    unfold writeTexts
    generalize w.writeFile path text = written at h ⊢
    obtain ⟨result, middle⟩ := written
    cases result with
    | error failure => exact h
    | ok => exact h.trans (ih middle)

/-- Texts that are written to different places are all there in the end. -/
theorem hasText_writeTexts (hl : w.tree.isLinkFree) (hcwd : w.tree.HasDirectoryAt w.cwd)
    (hd : texts.Pairwise fun t u => t.1.place w.cwd ≠ u.1.place w.cwd)
    (h : w.writeTexts texts = (.ok (), w')) : ∀ t ∈ texts, w'.HasText t.1 t.2 := by
  induction texts generalizing w with
  | nil => simp
  | cons t rest ih =>
    obtain ⟨path, text⟩ := t
    have hrestores := restores_writeFile w path text
    have hcwd' := hasDirectoryAt_writeFile hl hcwd path text
    unfold writeTexts at h
    cases hw : w.writeFile path text with
    | mk result middle =>
      rw [hw] at h hrestores hcwd'
      cases result with
      | error failure => cases h
      | ok =>
        obtain ⟨hpath, hrest⟩ := List.pairwise_cons.mp hd
        have hl' := hrestores.linkFree hl
        have hothers := grows_writeTexts hl' hcwd' rest
        rw [List.forall_mem_cons]
        constructor
        · have htext := (grows_of_writeFile_ok hl hcwd hw).2
          have hlast := restores_writeTexts middle rest
          dsimp only at h hothers
          rw [h] at hothers hlast
          refine htext.of_grows hl' hlast hothers ?_
          rintro ⟨t, ht, hplace⟩
          rw [hrestores.cwd] at hplace
          exact hpath t ht hplace.symm
        · exact ih hl' hcwd' (by rwa [hrestores.cwd]) h

end World

namespace Exporter

theorem written_of_collect (hc : (x.collect o w).1 = .ok report) : report.written = [] := by
  rw [eq_ofResults_of_collect hc]
  rfl

/-- The world after an export is that after writing what is collected. -/
theorem run_cases (x : Exporter) (o : ExportOptions) (w : World) :
    (∃ failure, (x.collect o w).1 = .error failure ∧
        x.run o w = (.error (.failed failure), (x.collect o w).2)) ∨
      ∃ report, (x.collect o w).1 = .ok report ∧
        x.run o w = x.writeReport o report (x.collect o w).2 := by
  unfold run
  cases x.collect o w with
  | mk result middle =>
    cases result with
    | error failure => exact Or.inl ⟨failure, rfl, rfl⟩
    | ok report => exact Or.inr ⟨report, rfl, rfl⟩

theorem grows_run (hl : w.tree.isLinkFree) (hcwd : w.tree.HasDirectoryAt w.cwd) (x : Exporter)
    (o : ExportOptions) : w.tree.Grows (x.run o w).2.tree
      (fun q => ∃ p ∈ o.targets, p.place w.cwd = q) (o.outputPath.parent.Crosses w.cwd) := by
  obtain ⟨hkeeps, htree⟩ := World.keeps_collect x o w
  rcases run_cases x o w with ⟨failure, -, hrun⟩ | ⟨report, -, hrun⟩
  · rw [hrun, htree]
    exact .refl _
  · have hwrite := World.grows_writeReport (w := (x.collect o w).2) (by rwa [htree])
      (by rwa [htree, hkeeps.cwd]) x o report
    rw [htree, hkeeps.cwd] at hwrite
    rw [hrun]
    exact hwrite

/-- The process stays where it is, and no link is made. -/
theorem keeps_run (x : Exporter) (o : ExportOptions) (w : World) :
    w.Keeps (x.run o w).2 ∧ (w.tree.isLinkFree → (x.run o w).2.tree.isLinkFree) := by
  obtain ⟨hkeeps, htree⟩ := World.keeps_collect x o w
  rcases run_cases x o w with ⟨failure, -, hrun⟩ | ⟨report, -, hrun⟩
  · rw [hrun, htree]
    exact ⟨hkeeps, id⟩
  · have hwrite := World.restores_writeReport x o report (x.collect o w).2
    rw [hrun]
    exact ⟨hkeeps.trans hwrite.toKeeps, fun hl => hwrite.linkFree (by rwa [htree])⟩

theorem frames_run (hl : w.tree.isLinkFree) (hcwd : w.tree.HasDirectoryAt w.cwd) (x : Exporter)
    (o : ExportOptions) : o.Frames w (x.run o w).2 := by
  have hgrows := grows_run hl hcwd x o
  have hl' := (keeps_run x o w).2 hl
  generalize (x.run o w).2 = after at hgrows hl'
  refine ⟨?_, ?_, ?_⟩
  · intro q hq
    rw [Ne, ← Tree.surface_eq_none_iff] at hq ⊢
    exact hgrows.ne_none hq
  · intro q content body hq hfile
    rw [← Tree.surface_eq_file_iff] at hfile ⊢
    refine hgrows.surface_file ?_ hfile
    rintro ⟨p, hp, hplace⟩
    exact hq p hp hplace
  · intro q hbefore hafter
    rw [← Tree.surface_eq_none_iff] at hbefore
    rw [Ne, ← Tree.surface_eq_none_iff] at hafter
    cases hgrows q with
    | kept h => exact absurd (h.trans hbefore) hafter
    | made hw _ ha =>
      refine Or.inr ⟨(Tree.surface_eq_directory_iff hl').mp ha, hw.exists_front ?_⟩
      rintro rfl
      have hstart := Tree.hasDirectoryAt_start hcwd o.outputPath
      rw [← Tree.surface_eq_directory_iff hl, hbefore] at hstart
      cases hstart
    | written hf _ ha => exact Or.inl ⟨⟨_, _, Tree.surface_eq_file_iff.mp ha⟩, hf⟩

theorem WritesNothing.tree_run (h : x.WritesNothing o w) : (x.run o w).2.tree = w.tree := by
  obtain ⟨-, htree⟩ := World.keeps_collect x o w
  rcases run_cases x o w with ⟨failure, hc, hrun⟩ | ⟨report, hc, hrun⟩
  · rw [hrun, htree]
  · rw [hrun, ← htree]
    cases h with
    | failed hc' =>
      rw [hc] at hc'
      cases hc'
    | empty hc' he =>
      rw [hc, Except.ok.injEq] at hc'
      simp [writeReport, hc', he]
    | unrendered hc' hr =>
      rw [hc, Except.ok.injEq] at hc'
      unfold writeReport
      split
      · rfl
      · rw [hc', hr]

/-- The files of an export that succeeds: the module holds its text, and the declarations theirs if
they are asked for. No other path is told of. -/
theorem written_of_run (hl : w.tree.isLinkFree) (hcwd : w.tree.HasDirectoryAt w.cwd)
    (hr : (x.run o w).1 = .ok r) (hne : r.entries ≠ []) :
    ∃ text, renderModule r.entries = .ok text ∧
      (x.run o w).2.HasText o.outputPath text ∧
      if o.emitDeclarations then
        ∃ path, declarationPath? o.outputPath = some path ∧ r.written = [o.outputPath, path] ∧
          (x.run o w).2.HasText path (renderDeclarations x.isReadonly r.entries)
      else r.written = [o.outputPath] := by
  obtain ⟨hkeeps, htree⟩ := World.keeps_collect x o w
  rcases run_cases x o w with ⟨failure, -, hrun⟩ | ⟨report, hc, hrun⟩
  · rw [hrun] at hr
    cases hr
  · have hwrite : x.writeReport o report (x.collect o w).2 = (.ok r, (x.run o w).2) := by
      rw [← hrun, ← hr]
    obtain ⟨texts, htexts, hwritten, rfl⟩ := writeReport_eq_ok_iff.mp hwrite
    have hthere := World.hasText_writeTexts (by rwa [htree]) (by rwa [htree, hkeeps.cwd])
      (pairwise_of_texts? htexts _) hwritten
    unfold texts? at htexts
    rw [if_neg (by simpa using hne)] at htexts
    obtain ⟨text, ht, htexts⟩ := Option.bind_eq_some_iff.mp htexts
    have hrender : renderModule report.entries = .ok text := by
      cases hm : renderModule report.entries with
      | error e => simp [hm, Except.toOption] at ht
      | ok text' => simpa [hm, Except.toOption] using ht
    refine ⟨text, hrender, ?_⟩
    rw [written_of_collect hc, List.nil_append]
    split at htexts
    · rename_i hemit
      obtain ⟨path, hpath, rfl⟩ := Option.map_eq_some_iff.mp htexts
      rw [if_pos hemit]
      exact ⟨hthere (o.outputPath, text) (by simp), path, hpath, rfl,
        hthere (path, renderDeclarations x.isReadonly report.entries) (by simp)⟩
    · rename_i hemit
      cases htexts
      rw [if_neg hemit]
      exact ⟨hthere _ (List.mem_singleton_self _), rfl⟩

/-- An export keeps its frame, whether it fails or not; if it does not come to writing, it changes
nothing; and if it succeeds with entries, it tells of the files that it has written, which hold what
is rendered. -/
theorem run_in_frame (hl : w.tree.isLinkFree) (hcwd : w.tree.HasDirectoryAt w.cwd) (x : Exporter)
    (o : ExportOptions) :
    o.Frames w (x.run o w).2 ∧
      (x.WritesNothing o w → (x.run o w).2.tree = w.tree) ∧
      ∀ r, (x.run o w).1 = .ok r → r.entries ≠ [] →
        ∃ text, renderModule r.entries = .ok text ∧
          (x.run o w).2.tree.read w.cwd o.outputPath = .ok (encodeUtf8 text) ∧
          if o.emitDeclarations then
            ∃ path, declarationPath? o.outputPath = some path ∧ r.written = [o.outputPath, path] ∧
              (x.run o w).2.tree.read w.cwd path =
                .ok (encodeUtf8 (renderDeclarations x.isReadonly r.entries))
          else r.written = [o.outputPath] := by
  refine ⟨frames_run hl hcwd x o, fun h => h.tree_run, ?_⟩
  intro r hr hne
  obtain ⟨text, ht, hmodule, hrest⟩ := written_of_run hl hcwd hr hne
  obtain ⟨hkeeps, hlinkFree⟩ := keeps_run x o w
  refine ⟨text, ht, ?_, ?_⟩
  · rw [← hkeeps.cwd]
    exact hmodule.read_eq (hlinkFree hl)
  · split
    · rename_i hemit
      rw [if_pos hemit] at hrest
      obtain ⟨path, hpath, hwritten, hdeclarations⟩ := hrest
      refine ⟨path, hpath, hwritten, ?_⟩
      rw [← hkeeps.cwd]
      exact hdeclarations.read_eq (hlinkFree hl)
    · rename_i hemit
      rwa [if_neg hemit] at hrest

end Exporter

namespace World

/-- The module of the package and its declarations. -/
def optionsOfD : ExportOptions := { optionsOfP with emitDeclarations := true }

/-- Such an export comes to writing the entries of the package. -/
theorem exists_run_optionsOfD {beside : List (String × Node)} (hb : IsPlain beside) :
    ∃ log, exporterOfP.run optionsOfD (packageOfA [] beside []) =
      exporterOfP.writeReport optionsOfD (.ofResults (resultsOfA [] moduleB packageP false))
        (packageOfA [] beside log) := by
  have hm : [] ∈ [[], moduleInA []] := List.mem_cons_self
  have hcollect := fst_collect_exporterOfP [] hb hm (List.mem_cons_of_mem _ List.mem_cons_self)
  exact Exporter.exists_run_eq_writeReport (o := optionsOfD) (isFresh_packageOfA [] hb hm)
    (tellsOwnFiles_packageOfA [] hb hm) hcollect

/-- The declarations are written beside the module. -/
theorem writeFile_declarationsOfD (module : List UInt8) (text : List Char) (log : Log) :
    (packageOfA [] (moduleBeside module) log).writeFile (.ofLocation ["out.d.ts"]) text =
      (.ok (), packageOfA []
        (moduleBeside module ++ [("out.d.ts", .file (encodeUtf8 text) {})]) log) := by cbv

theorem writeTexts_optionsOfD (module declarations : List Char) (log : Log) :
    (packageOfA [] [] log).writeTexts
        [(.ofLocation ["out.js"], module), (.ofLocation ["out.d.ts"], declarations)] =
      (.ok (), packageOfA [] (moduleBeside (encodeUtf8 module) ++
        [("out.d.ts", .file (encodeUtf8 declarations) {})]) log) := by
  have hmodule : (packageOfA [] [] log).writeFile (.ofLocation ["out.js"]) module =
      (.ok (), packageOfA [] (moduleBeside (encodeUtf8 module)) log) :=
    writeFile_outputOfP module log
  simp only [writeTexts, hmodule, writeFile_declarationsOfD]

/-- The export of the package with its declarations. -/
theorem exists_run_packageOfD : ∃ r after,
    exporterOfP.run optionsOfD (packageOfA [] [] []) = (.ok r, after) ∧ r.entries ≠ [] := by
  have hnone := isPlain_nil
  have hpath : declarationPath? optionsOfD.outputPath = some (.ofLocation ["out.d.ts"]) := rfl
  have hentries : (ExportReport.ofResults (resultsOfA [] moduleB packageP false)).entries =
      entriesOfA false := rfl
  obtain ⟨text, htext, -⟩ := exists_renderModule_entriesOfA false
  have htexts : exporterOfP.texts? optionsOfD (entriesOfA false) =
      some [(.ofLocation ["out.js"], text),
        (.ofLocation ["out.d.ts"], renderDeclarations false (entriesOfA false))] := by
    have hne : List.isEmpty (entriesOfA false) = false := rfl
    have hemit : optionsOfD.emitDeclarations = true := rfl
    simp only [Exporter.texts?, hne, htext, hemit, hpath, Except.toOption, Option.bind_some,
      Option.map_some, if_true, Bool.false_eq_true, if_false]
    rfl
  obtain ⟨log, hrun⟩ := exists_run_optionsOfD hnone
  rw [Exporter.writeReport_eq_ok_iff.mpr
    ⟨_, hentries ▸ htexts, writeTexts_optionsOfD _ _ log, rfl⟩] at hrun
  exact ⟨_, _, hrun, List.cons_ne_nil _ _⟩

theorem run_in_frame_packageOfA :
    (packageOfA [] [] []).tree.isLinkFree ∧
      (packageOfA [] [] []).tree.HasDirectoryAt (packageOfA [] [] []).cwd ∧
      ∃ r after text, exporterOfP.run optionsOfD (packageOfA [] [] []) = (.ok r, after) ∧
        optionsOfD.Frames (packageOfA [] [] []) after ∧
        renderModule r.entries = .ok text ∧
        after.tree.read [] (.ofLocation ["out.js"]) = .ok (encodeUtf8 text) ∧
        r.written = [.ofLocation ["out.js"], .ofLocation ["out.d.ts"]] ∧
        after.tree.read [] (.ofLocation ["out.d.ts"]) =
          .ok (encodeUtf8 (renderDeclarations false r.entries)) := by
  have hl : (packageOfA [] [] []).tree.isLinkFree := rfl
  have hcwd : (packageOfA [] [] []).tree.HasDirectoryAt [] := ⟨_, rfl⟩
  have hpath : declarationPath? optionsOfD.outputPath = some (.ofLocation ["out.d.ts"]) := rfl
  obtain ⟨r, after, hrun, hne⟩ := exists_run_packageOfD
  obtain ⟨hframes, -, hfiles⟩ := Exporter.run_in_frame hl hcwd exporterOfP optionsOfD
  rw [hrun] at hframes hfiles
  obtain ⟨text, htext, hmodule, path, hpath', hwritten, hdeclarations⟩ := hfiles r rfl hne
  cases hpath.symm.trans hpath'
  exact ⟨hl, hcwd, r, after, text, hrun, hframes, htext, hmodule, hwritten, hdeclarations⟩

end World

end SymbolExport
