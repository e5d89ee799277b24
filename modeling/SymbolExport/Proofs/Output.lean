import SymbolExport.Proofs.Writing

/-!
The files of an export: the module and the declarations that are asked for. Written once more over
themselves they change nothing.
-/
namespace SymbolExport

open SymbolExport.Text

/-- The paths that an export with these options writes to. -/
def ExportOptions.targets (o : ExportOptions) : List Path :=
  o.outputPath :: if o.emitDeclarations then (declarationPath? o.outputPath).toList else []

/-- The texts that an export of these entries writes, with their paths; none if they cannot be
rendered. -/
def Exporter.texts? (x : Exporter) (o : ExportOptions) (entries : ExportTable) :
    Option (List (Path × List Char)) :=
  if List.isEmpty entries then some []
  else
    (renderModule entries).toOption.bind fun text =>
      if o.emitDeclarations then
        (declarationPath? o.outputPath).map fun path =>
          [(o.outputPath, text), (path, renderDeclarations x.isReadonly entries)]
      else some [(o.outputPath, text)]

/-- Writes texts one after the other. -/
def World.writeTexts (w : World) : List (Path × List Char) → Except Failure Unit × World
  | [] => (.ok (), w)
  | (path, text) :: rest =>
    match w.writeFile path text with
    | (.error failure, w) => (.error failure, w)
    | (.ok (), w) => w.writeTexts rest

variable {w w' : World} {x : Exporter} {o : ExportOptions} {report r : ExportReport}
  {texts : List (Path × List Char)} {path p : Path} {text : List Char} {cwd : Location}

theorem Exporter.writeDeclarations_eq_ok_iff :
    x.writeDeclarations o r w = (.ok report, w') ↔
      ∃ path, declarationPath? o.outputPath = some path ∧
        w.writeFile path (renderDeclarations x.isReadonly r.entries) = (.ok (), w') ∧
        report = { r with written := r.written ++ [path] } := by
  unfold writeDeclarations
  cases hd : declarationPath? o.outputPath with
  | none => simp
  | some path =>
    cases hw : w.writeFile path (renderDeclarations x.isReadonly r.entries) with
    | mk result last => cases result <;> simp [hw, eq_comm, and_comm]

/-- An export succeeds exactly if its texts can be rendered and written. -/
theorem Exporter.writeReport_eq_ok_iff : x.writeReport o report w = (.ok r, w') ↔
    ∃ texts, x.texts? o report.entries = some texts ∧ w.writeTexts texts = (.ok (), w') ∧
      r = { report with written := report.written ++ texts.map Prod.fst } := by
  unfold writeReport texts?
  by_cases he : List.isEmpty report.entries
  · simp only [ExportReport.isEmpty, he, if_true, Prod.mk.injEq, Except.ok.injEq, Option.some.injEq,
      exists_eq_left', World.writeTexts, List.map_nil, List.append_nil, true_and]
    constructor
    · rintro ⟨rfl, rfl⟩
      exact ⟨rfl, rfl⟩
    · rintro ⟨rfl, rfl⟩
      exact ⟨rfl, rfl⟩
  · simp only [ExportReport.isEmpty, he]
    cases hm : renderModule report.entries with
    | error e => simp [Except.toOption]
    | ok text =>
      cases hw : w.writeFile o.outputPath text with
      | mk result middle =>
        cases result with
        | error failure =>
          by_cases hemit : o.emitDeclarations
          · cases hd : declarationPath? o.outputPath <;>
              simp [Except.toOption, hemit, World.writeTexts, hw]
          · simp [Except.toOption, hemit, World.writeTexts, hw]
        | ok =>
          by_cases hemit : o.emitDeclarations
          · simp only [hemit, hw, if_true, Bool.false_eq_true, if_false]
            rw [writeDeclarations_eq_ok_iff]
            cases hd : declarationPath? o.outputPath with
            | none => simp [Except.toOption]
            | some path =>
              cases hl : middle.writeFile path (renderDeclarations x.isReadonly report.entries) with
              | mk result last =>
                cases result <;> simp [Except.toOption, World.writeTexts, hw, hl]
          · simp only [hemit]
            simp [Except.toOption, World.writeTexts, hw, eq_comm, and_comm]

/-- Texts as the files that they become. -/
def filesOf (cwd : Location) (texts : List (Path × List Char)) : List (Location × List UInt8) :=
  texts.map fun t => (t.1.place cwd, encodeUtf8 t.2)

/-- The directories on the ways to the texts. -/
def waysOf (cwd : Location) (texts : List (Path × List Char)) (q : Location) : Prop :=
  ∃ t ∈ texts, t.1.parent.Crosses cwd q

theorem Tree.Written.refl (tree : Tree) : tree.Written tree [] fun _ => False :=
  ⟨.refl, by simp, by simp, fun _ _ _ => rfl, by simp, by simp⟩

namespace World

theorem written_writeTexts (hl : w.tree.isLinkFree) (hcwd : w.tree.HasDirectoryAt w.cwd)
    (hn : ∀ t ∈ texts, t.1.suffix ≠ sourceExtension)
    (hd : texts.Pairwise fun t u => t.1.place w.cwd ≠ u.1.place w.cwd)
    (h : w.writeTexts texts = (.ok (), w')) :
    w.tree.Written w'.tree (filesOf w.cwd texts) (waysOf w.cwd texts) := by
  induction texts generalizing w with
  | nil =>
    cases h
    exact (Tree.Written.refl _).congr fun q => by simp [waysOf]
  | cons t rest ih =>
    obtain ⟨path, text⟩ := t
    have hrestores := restores_writeFile w path text
    unfold writeTexts at h
    cases hw : w.writeFile path text with
    | mk result middle =>
      rw [hw] at h hrestores
      cases result with
      | error failure => cases h
      | ok =>
        obtain ⟨hpath, hrest⟩ := List.pairwise_cons.mp hd
        have hfirst := written_writeFile hl hcwd (hn _ List.mem_cons_self) hw
        have hl' := hrestores.linkFree hl
        have hothers := ih hl' (by rw [hrestores.cwd]; exact hfirst.hasDirectoryAt hl hl' hcwd)
          (fun t ht => hn t (List.mem_cons_of_mem _ ht)) (by rwa [hrestores.cwd]) h
        rw [hrestores.cwd] at hothers
        refine (hfirst.trans hothers ?_).congr fun q => by simp [waysOf]
        intro f hf g hg
        obtain rfl := List.mem_singleton.mp hf
        obtain ⟨t, ht, rfl⟩ := List.mem_map.mp hg
        exact hpath t ht

theorem makeDirectories_of_isDirectory {anchor : PathAnchor} {names : List String}
    (hl : w.tree.isLinkFree) (h : w.tree.isDirectory w.cwd ⟨anchor, names.reverse⟩) :
    w.makeDirectories anchor names = (.ok (), w) := by
  obtain ⟨hp, entries, ha⟩ := (Tree.isDirectory_iff hl).mp h
  have hmake : w.tree.makeDirectory w.refusal? w.cwd ⟨anchor, names.reverse⟩ = .error .exists := by
    have hfind : w.tree.find w.cwd ⟨anchor, names.reverse⟩ false = .ok _ :=
      (Tree.find_eq_ok_iff hl).mpr ⟨hp, rfl⟩
    simp [Tree.makeDirectory, hfind, bind, Except.bind, ha]
  cases names with
  | nil =>
    simp only [List.reverse_nil] at hmake h
    simp [makeDirectories, makeDirectory, hmake, requireDirectory, h]
  | cons name outer => simp only [makeDirectories, hmake, requireDirectory, h, if_true]

/-- What leads to a path, if there are directories on the way to it. -/
theorem isPassable_of_way (h : ∀ q, path.parent.Crosses w.cwd q → w.tree.HasDirectoryAt q) :
    w.tree.IsPassable (path.start w.cwd) path.parts := by
  intro front last back hfront
  refine h _ ⟨front, ?_, rfl⟩
  rw [Path.parent, hfront, List.dropLast_append_of_ne_nil (List.cons_ne_nil last back)]
  exact List.prefix_append front _

/-- Where the directories on the way are there, only the file itself is left to write. -/
theorem writeBytes_of_way (hl : w.tree.isLinkFree)
    (h : ∀ q, path.parent.Crosses w.cwd q → w.tree.HasDirectoryAt q) (bytes : List UInt8) :
    w.writeBytes path bytes =
      match w.tree.write w.refusal? w.cwd path bytes with
      | .ok tree => (.ok (), { w with tree := tree })
      | .error fault => (.error (.system fault path), w) := by
  have hparent :
      w.tree.isDirectory w.cwd ⟨path.parent.anchor, path.parent.parts.reverse.reverse⟩ := by
    rw [List.reverse_reverse]
    refine (Tree.isDirectory_iff hl).mpr ⟨?_, h _ (Tree.crosses_place _ _)⟩
    intro front last back hfront
    exact h _ ⟨front, ⟨last :: back, hfront.symm⟩, rfl⟩
  rewrite [writeBytes, makeDirectories_of_isDirectory hl hparent]
  rfl

/-- Bytes are in their place and may be written there, and there are directories on the way to it. -/
structure HasBytes (w : World) (path : Path) (bytes : List UInt8) : Prop where
  way : ∀ q, path.parent.Crosses w.cwd q → w.tree.HasDirectoryAt q
  file : ∃ body, w.tree.at? (path.place w.cwd) = some (.file bytes body)
  allowed : w.refusal? (path.place w.cwd) = none

/-- A text is in its place, encoded. -/
structure HasText (w : World) (path : Path) (text : List Char) : Prop
    extends HasBytes w path (encodeUtf8 text) where
  encodable : w.encodeFault? text = none

/-- Nothing that is known beforehand keeps a text from being written to a path. -/
def Admits (w : World) (path : Path) (text : List Char) : Prop :=
  w.refusal? (path.place w.cwd) = none ∧ w.encodeFault? text = none

theorem Keeps.admits_iff {before after : World} (h : before.Keeps after) :
    after.Admits path text ↔ before.Admits path text := by
  rw [Admits, Admits, h.refusal?, h.encodeFault?, h.cwd]

/-- Writing a text that is there already changes nothing. -/
theorem HasText.writeFile_eq (h : w.HasText path text) (hl : w.tree.isLinkFree) :
    w.writeFile path text = (.ok (), w) := by
  obtain ⟨body, ha⟩ := h.file
  have hfind : w.tree.find w.cwd path true = .ok (path.place w.cwd) :=
    (Tree.find_eq_ok_iff hl).mpr ⟨isPassable_of_way h.way, rfl⟩
  have hwrite : w.tree.write w.refusal? w.cwd path (encodeUtf8 text) = .ok w.tree :=
    Tree.write_eq_ok_iff.mpr
      ⟨_, body, hfind, Or.inr ⟨_, ha⟩, h.allowed, (Node.put_of_at? ha).symm⟩
  rw [writeFile_eq_ok_iff, writeBytes_of_way hl h.way, hwrite]
  exact ⟨h.encodable, rfl⟩

theorem writeTexts_of_hasText (hl : w.tree.isLinkFree) (h : ∀ t ∈ texts, w.HasText t.1 t.2) :
    w.writeTexts texts = (.ok (), w) := by
  induction texts with
  | nil => rfl
  | cons t rest ih =>
    rw [writeTexts, (h t List.mem_cons_self).writeFile_eq hl]
    exact ih fun t ht => h t (List.mem_cons_of_mem _ ht)

/-- A text that has been written is not refused. -/
theorem admits_of_writeFile (hl : w.tree.isLinkFree) (h : w.writeFile path text = (.ok (), w')) :
    w.Admits path text := by
  obtain ⟨hencodes, h⟩ := writeFile_eq_ok_iff.mp h
  have hrestores := restores_makeDirectories w path.parent.anchor path.parent.parts.reverse
  unfold writeBytes at h
  generalize w.makeDirectories path.parent.anchor path.parent.parts.reverse = made at h hrestores
  obtain ⟨result, middle⟩ := made
  dsimp only at h hrestores
  cases result with
  | error failure => cases h
  | ok =>
    dsimp only at h
    split at h
    · rename_i tree hwrite
      obtain ⟨place, body, hf, -, hallowed, -⟩ := Tree.write_eq_ok_iff.mp hwrite
      obtain ⟨-, rfl⟩ := (Tree.find_eq_ok_iff (hrestores.linkFree hl)).mp hf
      rw [hrestores.refusal?, hrestores.cwd] at hallowed
      exact ⟨hallowed, hencodes⟩
    · cases h

theorem admits_of_writeTexts (hl : w.tree.isLinkFree) (h : w.writeTexts texts = (.ok (), w')) :
    ∀ t ∈ texts, w.Admits t.1 t.2 := by
  induction texts generalizing w with
  | nil => simp
  | cons t rest ih =>
    obtain ⟨path, text⟩ := t
    have hrestores := restores_writeFile w path text
    unfold writeTexts at h
    cases hw : w.writeFile path text with
    | mk result middle =>
      rw [hw] at h hrestores
      cases result with
      | error failure => cases h
      | ok =>
        have hrest := ih (hrestores.linkFree hl) h
        exact List.forall_mem_cons.mpr
          ⟨admits_of_writeFile hl hw, fun t ht => hrestores.admits_iff.mp (hrest t ht)⟩

/-- What has been written is there. -/
theorem hasText_of_written {before : Tree} (hl : w.tree.isLinkFree)
    (h : before.Written w.tree (filesOf w.cwd texts) (waysOf w.cwd texts))
    (ha : ∀ t ∈ texts, w.Admits t.1 t.2) : ∀ t ∈ texts, w.HasText t.1 t.2 := by
  intro t ht
  obtain ⟨hallowed, hencodes⟩ := ha t ht
  refine ⟨⟨fun q hq => ?_, ?_, hallowed⟩, hencodes⟩
  · exact (Tree.surface_eq_directory_iff hl).mp (h.way q ⟨t, ht, hq⟩)
  · exact ⟨_, Tree.surface_eq_file_iff.mp (h.file _ (List.mem_map_of_mem ht))⟩

end World

theorem splitName_declaration (stem : String) :
    Path.splitName (stem ++ declarationSuffix) = (stem.toList ++ ".d".toList, ".ts".toList) := by
  have hname : stem ++ declarationSuffix =
      String.ofList ((stem.toList ++ ".d".toList) ++ '.' :: "ts".toList) := by
    rw [← String.toList_inj]
    simp [declarationSuffix]
  rw [hname, Path.splitName_ofList (by simp) (by simp) (by simp)]
  rfl

/-- The declarations have a name of their own. -/
theorem stemOf_append_declarationSuffix_ne (name : String) :
    Path.stemOf name ++ declarationSuffix ≠ name := by
  intro he
  have hstem := congrArg Path.stemOf he
  rw [Path.stemOf, splitName_declaration] at hstem
  have hlength := congrArg (fun s => s.toList.length) hstem
  simp at hlength

/-- The declarations are no source, and their place is not that of the module. -/
theorem declarationPath?_eq_some (h : declarationPath? path = some p) (cwd : Location) :
    p.suffix ≠ sourceExtension ∧ path.place cwd ≠ p.place cwd := by
  unfold declarationPath? Path.withName? at h
  split at h
  · cases h
  · rename_i hne
    cases h
    obtain ⟨front, name, hparts⟩ :=
      (List.eq_nil_or_concat' path.parts).resolve_left (by simpa using hne)
    have hstem : path.stem = Path.stemOf name := by simp [Path.stem, Path.name, hparts]
    rw [hstem]
    have hother : Path.stemOf name ++ declarationSuffix ≠ ".." := by
      intro he
      have hlast := congrArg (fun s => s.toList.getLast?) he
      simp [declarationSuffix] at hlast
    constructor
    · have hsuffix : Path.suffixOf (Path.stemOf name ++ declarationSuffix) = ".ts" := by
        rw [Path.suffixOf, splitName_declaration]
        rfl
      simp [Path.suffix, Path.name, hsuffix, sourceExtension]
    · simp only [Path.place, Path.start, Path.isAbsolute, hparts, List.dropLast_concat,
        normalize_append, normalize, hother, if_false]
      intro he
      split at he
      · have hlength := congrArg List.length he
        simp at hlength
      · have hnames := (List.append_right_inj _).mp he
        exact stemOf_append_declarationSuffix_ne name (List.singleton_inj.mp hnames).symm

theorem suffix_of_mem_targets (ho : o.outputPath.suffix ≠ sourceExtension) (hp : p ∈ o.targets) :
    p.suffix ≠ sourceExtension := by
  unfold ExportOptions.targets at hp
  rcases List.mem_cons.mp hp with rfl | hp
  · exact ho
  · split at hp
    · exact (declarationPath?_eq_some (Option.mem_toList.mp hp) []).1
    · cases hp

namespace Exporter

variable {entries : ExportTable}

theorem mem_targets_of_texts? (h : x.texts? o entries = some texts) :
    ∀ t ∈ texts, t.1 ∈ o.targets := by
  unfold texts? at h
  split at h
  · cases h
    simp
  · obtain ⟨text, -, h⟩ := Option.bind_eq_some_iff.mp h
    split at h
    · rename_i hemit
      obtain ⟨path, hpath, rfl⟩ := Option.map_eq_some_iff.mp h
      simp [ExportOptions.targets, hemit, hpath]
    · cases h
      simp [ExportOptions.targets]

theorem pairwise_of_texts? (h : x.texts? o entries = some texts) (cwd : Location) :
    texts.Pairwise fun t u => t.1.place cwd ≠ u.1.place cwd := by
  unfold texts? at h
  split at h
  · cases h
    simp
  · obtain ⟨text, -, h⟩ := Option.bind_eq_some_iff.mp h
    split at h
    · obtain ⟨path, hpath, rfl⟩ := Option.map_eq_some_iff.mp h
      simpa using (declarationPath?_eq_some hpath cwd).2
    · cases h
      simp

end Exporter

end SymbolExport
