import SymbolExport.Proofs.Output

/-!
The footprint of writing. Whether it succeeds or not, no path disappears; the bytes of a file are
written when all that can fail is behind, and what else is new are directories on the way to it.
-/
namespace SymbolExport

open SymbolExport.Text

namespace Tree

/-- What can become of a place: it stays as it is, a directory is made on a way where nothing was,
or bytes are written where no directory is. -/
inductive Growth (before after : Tree) (files ways : Location → Prop) (q : Location) : Prop
  | kept (h : after.surface q = before.surface q)
  | made (hw : ways q) (hb : before.surface q = none) (ha : after.surface q = some none)
  | written {content : List UInt8} (hf : files q) (hb : before.surface q ≠ some none)
      (ha : after.surface q = some (some (content, before.bodyAt q)))

/-- A tree grows at places of files and on ways, and stays as it is elsewhere. -/
def Grows (before after : Tree) (files ways : Location → Prop) : Prop :=
  ∀ q, before.Growth after files ways q

variable {before middle after tree : Tree} {files files' ways ways' : Location → Prop}
  {cwd q : Location} {p : Path} {content : List UInt8} {refusal? : Location → Option PathFault}

theorem Growth.mono (h : before.Growth after files ways q) (hf : files q → files' q)
    (hw : ways q → ways' q) : before.Growth after files' ways' q := by
  cases h with
  | kept h => exact .kept h
  | made hway hb ha => exact .made (hw hway) hb ha
  | written hfile hb ha => exact .written (hf hfile) hb ha

/-- A directory is made, and a file written, only once or over a file. -/
theorem Growth.trans (h : before.Growth middle files ways q)
    (h' : middle.Growth after files ways q) : before.Growth after files ways q := by
  cases h with
  | kept h =>
    cases h' with
    | kept h' => exact .kept (h'.trans h)
    | made hw hb ha => exact .made hw (h ▸ hb) ha
    | written hf hb ha => exact .written hf (h ▸ hb) (by rw [ha, bodyAt, bodyAt, h])
  | made hw hb hm =>
    cases h' with
    | kept h' => exact .made hw hb (h'.trans hm)
    | made _ hb' _ => exact absurd (hb'.symm.trans hm) (by simp)
    | written _ hb' _ => exact absurd hm hb'
  | written hf hb hm =>
    cases h' with
    | kept h' => exact .written hf hb (h'.trans hm)
    | made _ hb' _ => exact absurd (hb'.symm.trans hm) (by simp)
    | written _ _ ha => exact .written hf hb (by rw [ha, bodyAt_of_surface hm])

theorem Grows.refl (tree : Tree) : tree.Grows tree files ways :=
  fun _ => .kept rfl

theorem Grows.mono (h : before.Grows after files ways) (hf : ∀ q, files q → files' q)
    (hw : ∀ q, ways q → ways' q) : before.Grows after files' ways' :=
  fun q => (h q).mono (hf q) (hw q)

theorem Grows.trans (h : before.Grows middle files ways) (h' : middle.Grows after files ways) :
    before.Grows after files ways :=
  fun q => (h q).trans (h' q)

theorem Grows.ne_none (h : before.Grows after files ways) (hq : before.surface q ≠ none) :
    after.surface q ≠ none := by
  cases h q with
  | kept h => rwa [h]
  | made _ hb _ => exact absurd hb hq
  | written _ _ ha => simp [ha]

theorem Grows.hasDirectoryAt (h : before.Grows after files ways) (hl : before.isLinkFree)
    (hl' : after.isLinkFree) (hq : before.HasDirectoryAt q) : after.HasDirectoryAt q := by
  rw [← surface_eq_directory_iff hl] at hq
  rw [← surface_eq_directory_iff hl']
  cases h q with
  | kept h => rw [h, hq]
  | made _ _ ha => exact ha
  | written _ hb _ => exact absurd hq hb

/-- A file in whose place nothing is written stays as it is. -/
theorem Grows.surface_file (h : before.Grows after files ways) (hf : ¬ files q)
    {file : List UInt8 × ModuleBody} (hq : before.surface q = some (some file)) :
    after.surface q = some (some file) := by
  cases h q with
  | kept h => rw [h, hq]
  | made _ hb _ => simp [hq] at hb
  | written hfile _ _ => exact absurd hfile hf

theorem Written.grows {targets : List (Location × List UInt8)}
    (h : before.Written after targets ways) :
    before.Grows after (fun q => ∃ f ∈ targets, f.1 = q) ways := by
  intro q
  by_cases hf : ∃ f ∈ targets, f.1 = q
  · obtain ⟨f, hm, rfl⟩ := hf
    exact .written ⟨f, hm, rfl⟩ (h.oldFile f hm) (h.file f hm)
  · by_cases hw : ways q
    · rcases h.oldWay q hw with hb | hb
      · exact .made hw hb (h.way q hw)
      · exact .kept ((h.way q hw).trans hb.symm)
    · exact .kept (h.other q (fun f hm he => hf ⟨f, hm, he⟩) hw)

/-- Bytes that are written are all that changes, and they are not written over a directory. -/
theorem surface_write {written : Tree} (hl : tree.isLinkFree) (hcwd : tree.HasDirectoryAt cwd)
    (h : tree.write refusal? cwd p content = .ok written) :
    tree.surface (p.place cwd) ≠ some none ∧ ∀ q, written.surface q =
      if q = p.place cwd then some (some (content, tree.bodyAt (p.place cwd)))
      else tree.surface q := by
  obtain ⟨hp, ha, rfl⟩ := put_of_write hl h
  obtain ⟨-, -, -, hput⟩ := hp.exists_put hcwd ha
  exact ⟨surface_ne_directory hl ha, hput _ Node.isLeaf_file⟩

theorem grows_write {written : Tree} (hl : tree.isLinkFree) (hcwd : tree.HasDirectoryAt cwd)
    (h : tree.write refusal? cwd p content = .ok written) :
    tree.Grows written (· = p.place cwd) fun _ => False := by
  obtain ⟨hold, hwritten⟩ := surface_write hl hcwd h
  intro q
  by_cases hq : q = p.place cwd
  · subst hq
    exact .written rfl hold (by rw [hwritten, if_pos rfl])
  · exact .kept (by rw [hwritten, if_neg hq])

/-- Where a path leads, a file can be written unless a directory stands there or the system
refuses it. -/
theorem write_eq_error {fault : PathFault} (hl : tree.isLinkFree)
    (hp : tree.IsPassable (p.start cwd) p.parts)
    (h : tree.write refusal? cwd p content = .error fault) :
    fault = .isDirectory ∧ tree.HasDirectoryAt (p.place cwd) ∨
      refusal? (p.place cwd) = some fault := by
  have hfind : tree.find cwd p true = .ok (p.place cwd) := (find_eq_ok_iff hl).mpr ⟨hp, rfl⟩
  have hput {new : Node} (hu : tree.putUnless (refusal? (p.place cwd)) new (p.place cwd) =
      .error fault) : refusal? (p.place cwd) = some fault := by
    unfold putUnless at hu
    split at hu
    · rename_i refused hrefused
      rw [hrefused, Except.error.inj hu]
    · cases hu
  simp only [write, hfind, bind, Except.bind] at h
  split at h
  · exact Or.inr (hput h)
  · rename_i node hne ha
    cases h
    refine Or.inl ⟨rfl, ?_⟩
    cases node with
    | directory entries => exact ⟨entries, ha⟩
    | file content body => exact absurd rfl (hne content body)
    | link target => exact absurd ha (Node.at?_ne_link hl _ target)
  · exact Or.inr (hput h)

end Tree

namespace World

variable {w w' : World} {p path : Path} {bytes : List UInt8} {text : List Char}
  {texts : List (Path × List Char)}

theorem requireDirectory_snd (w : World) (p : Path) (fault : PathFault) :
    (w.requireDirectory p fault).2 = w := by
  unfold requireDirectory
  split <;> rfl

theorem grows_makeDirectory (hl : w.tree.isLinkFree) (hcwd : w.tree.HasDirectoryAt w.cwd)
    (p : Path) : w.tree.Grows (w.makeDirectory p).2.tree (fun _ => False) (p.Crosses w.cwd) := by
  unfold makeDirectory
  split
  · rename_i made hm
    exact (Tree.written_makeDirectory hl hcwd hm).grows.mono (by simp) fun _ => id
  · rw [requireDirectory_snd]
    exact .refl _

/-- The directories that are made are on the way, even if the last one cannot be made. -/
theorem grows_makeDirectories (hl : w.tree.isLinkFree) (hcwd : w.tree.HasDirectoryAt w.cwd)
    (anchor : PathAnchor) (names : List String) :
    w.tree.Grows (w.makeDirectories anchor names).2.tree (fun _ => False)
      (Path.Crosses ⟨anchor, names.reverse⟩ w.cwd) := by
  induction names with
  | nil => exact grows_makeDirectory hl hcwd _
  | cons name outer ih =>
    have houter : ∀ q, Path.Crosses ⟨anchor, outer.reverse⟩ w.cwd q →
        Path.Crosses ⟨anchor, (name :: outer).reverse⟩ w.cwd q := by
      rintro q ⟨front, hfront, hq⟩
      exact ⟨front, hfront.trans (by simp), hq⟩
    unfold makeDirectories
    dsimp only
    split
    · have hrestores := restores_makeDirectories w anchor outer
      cases hm : w.makeDirectories anchor outer with
      | mk result middle =>
        rw [hm] at ih hrestores
        have hmiddle := ih.mono (fun _ => id) houter
        cases result with
        | error failure => exact hmiddle
        | ok =>
          have hl' := hrestores.linkFree hl
          have hlast := grows_makeDirectory hl'
            (by rw [hrestores.cwd]; exact hmiddle.hasDirectoryAt hl hl' hcwd)
            ⟨anchor, (name :: outer).reverse⟩
          rw [hrestores.cwd] at hlast
          exact hmiddle.trans hlast
    · rw [requireDirectory_snd]
      exact .refl _
    · rename_i made hm
      exact (Tree.written_makeDirectory hl hcwd hm).grows.mono (by simp) fun _ => id

/-- A file that cannot be written leaves new directories at most. -/
theorem grows_of_writeBytes_error {failure : Failure} (hl : w.tree.isLinkFree)
    (hcwd : w.tree.HasDirectoryAt w.cwd) (h : w.writeBytes p bytes = (.error failure, w')) :
    w.tree.Grows w'.tree (fun _ => False) (p.parent.Crosses w.cwd) := by
  have hmade := grows_makeDirectories hl hcwd p.parent.anchor p.parent.parts.reverse
  rw [List.reverse_reverse] at hmade
  unfold writeBytes at h
  cases hm : w.makeDirectories p.parent.anchor p.parent.parts.reverse with
  | mk result middle =>
    rw [hm] at h hmade
    cases result with
    | error failure =>
      cases h
      exact hmade
    | ok =>
      dsimp only at h
      split at h
      · cases h
      · cases h
        exact hmade

/-- A file that is written holds its bytes, and nothing but new directories comes with it. -/
theorem grows_of_writeBytes_ok (hl : w.tree.isLinkFree) (hcwd : w.tree.HasDirectoryAt w.cwd)
    (h : w.writeBytes p bytes = (.ok (), w')) :
    w.tree.Grows w'.tree (· = p.place w.cwd) (p.parent.Crosses w.cwd) ∧ w'.HasBytes p bytes := by
  have hmade := grows_makeDirectories hl hcwd p.parent.anchor p.parent.parts.reverse
  have hrestores := restores_makeDirectories w p.parent.anchor p.parent.parts.reverse
  unfold writeBytes at h
  cases hm : w.makeDirectories p.parent.anchor p.parent.parts.reverse with
  | mk result middle =>
    rw [hm] at h hmade hrestores
    cases result with
    | error failure => cases h
    | ok =>
      have hways := (written_makeDirectories hl hcwd hm).way
      rw [List.reverse_reverse] at hmade hways
      have hl' := hrestores.linkFree hl
      have hcwd' : middle.tree.HasDirectoryAt middle.cwd := by
        rw [hrestores.cwd]
        exact hmade.hasDirectoryAt hl hl' hcwd
      dsimp only at h
      split at h
      · rename_i written hw
        cases h
        have hwrite := Tree.grows_write hl' hcwd' hw
        obtain ⟨-, hsurface⟩ := Tree.surface_write hl' hcwd' hw
        have hplace : p.place middle.cwd = p.place w.cwd := by rw [hrestores.cwd]
        rw [hplace] at hwrite
        refine ⟨(hmade.mono (fun _ => False.elim) fun _ => id).trans
          (hwrite.mono (fun _ => id) fun _ => False.elim), ?_, ?_, ?_⟩
        · intro q hq
          dsimp only at hq
          rw [hrestores.cwd] at hq
          have hdirectory := (Tree.surface_eq_directory_iff hl').mp (hways q hq)
          exact hwrite.hasDirectoryAt hl' ((restores_written hw).linkFree hl') hdirectory
        · exact ⟨_, Tree.surface_eq_file_iff.mp ((hsurface _).trans (if_pos rfl))⟩
        · obtain ⟨place, body, hf, -, hallowed, -⟩ := Tree.write_eq_ok_iff.mp hw
          obtain ⟨-, rfl⟩ := (Tree.find_eq_ok_iff hl').mp hf
          exact hallowed
      · cases h

theorem grows_of_writeFile_ok (hl : w.tree.isLinkFree) (hcwd : w.tree.HasDirectoryAt w.cwd)
    (h : w.writeFile p text = (.ok (), w')) :
    w.tree.Grows w'.tree (· = p.place w.cwd) (p.parent.Crosses w.cwd) ∧ w'.HasText p text := by
  have hrestores := restores_writeFile w p text
  rw [h] at hrestores
  obtain ⟨hencodes, h⟩ := writeFile_eq_ok_iff.mp h
  obtain ⟨hgrows, hbytes⟩ := grows_of_writeBytes_ok hl hcwd h
  exact ⟨hgrows, hbytes, by rw [hrestores.encodeFault?, hencodes]⟩

/-- A text that cannot be encoded leaves its file empty; else, what is not written leaves new
directories at most. -/
theorem grows_of_writeFile_error {failure : Failure} (hl : w.tree.isLinkFree)
    (hcwd : w.tree.HasDirectoryAt w.cwd) (h : w.writeFile p text = (.error failure, w')) :
    w.tree.Grows w'.tree (fun _ => False) (p.parent.Crosses w.cwd) ∨
      ∃ message, w.encodeFault? text = some message ∧ failure = .unencodable message ∧
        w.tree.Grows w'.tree (· = p.place w.cwd) (p.parent.Crosses w.cwd) ∧ w'.HasBytes p [] := by
  obtain ⟨bytes, hw⟩ | ⟨message, hfault, hfailure, hw⟩ := writeFile_error_cases h
  · exact Or.inl (grows_of_writeBytes_error hl hcwd hw)
  · exact Or.inr ⟨message, hfault, hfailure, grows_of_writeBytes_ok hl hcwd hw⟩

example : (World.writeFile
      { tree := .empty, cwd := [], home := [], encodeFault? := fun _ => some "half of a character" }
      (.ofLocation ["out.js"]) "x".toList).2.tree = .directory [("out.js", .file [] {})] := by
  cbv

/-- Bytes stay where nothing is written over them. -/
theorem HasBytes.of_grows {files ways : Location → Prop} (h : w.HasBytes path bytes)
    (hl : w.tree.isLinkFree) (hr : w.Restores w') (hg : w.tree.Grows w'.tree files ways)
    (hf : ¬ files (path.place w.cwd)) : w'.HasBytes path bytes where
  way := by
    intro q hq
    rw [hr.cwd] at hq
    exact hg.hasDirectoryAt hl (hr.linkFree hl) (h.way q hq)
  file := by
    obtain ⟨body, ha⟩ := h.file
    rw [hr.cwd]
    exact ⟨body, Tree.surface_eq_file_iff.mp
      (hg.surface_file hf (Tree.surface_eq_file_iff.mpr ha))⟩
  allowed := by
    rw [hr.refusal?, hr.cwd]
    exact h.allowed

theorem HasText.of_grows {files ways : Location → Prop} (h : w.HasText path text)
    (hl : w.tree.isLinkFree) (hr : w.Restores w') (hg : w.tree.Grows w'.tree files ways)
    (hf : ¬ files (path.place w.cwd)) : w'.HasText path text :=
  ⟨h.toHasBytes.of_grows hl hr hg hf, by rw [hr.encodeFault?, h.encodable]⟩

theorem HasText.read_eq (h : w.HasText path text) (hl : w.tree.isLinkFree) :
    w.tree.read w.cwd path = .ok (encodeUtf8 text) := by
  obtain ⟨body, ha⟩ := h.file
  have hstat : w.tree.stat w.cwd path = .ok (.file (encodeUtf8 text) body) :=
    (Tree.stat_eq_ok_iff hl).mpr ⟨isPassable_of_way h.way, ha⟩
  simp only [Tree.read, hstat]

end World

end SymbolExport
