import SymbolExport.Export
import SymbolExport.Proofs.Frame
import SymbolExport.Proofs.SourceWalk

/-!
What writing files does to a tree: it makes the directories on the way where nothing is, puts the
bytes in their places, and leaves all else.
-/
namespace SymbolExport

/-- A place that a path comes by, from where it starts up to its own place. -/
def Path.Crosses (p : Path) (cwd q : Location) : Prop :=
  ∃ front, front <+: p.parts ∧ q = normalize (p.start cwd) front

namespace Tree

/-- One change that adds no source: an empty directory where nothing is, or new bytes in a file of
another kind where no directory is. -/
inductive PutStep (tree : Tree) : Tree → Prop
  | directory {front : Location} {name : String} (hd : tree.HasDirectoryAt front)
      (ha : tree.at? (front ++ [name]) = none) : PutStep tree (tree.put .empty (front ++ [name]))
  | file {front : Location} {name : String} (content : List UInt8)
      (hd : tree.HasDirectoryAt front) (hn : ¬ isSourceName name)
      (ha : tree.at? (front ++ [name]) = none ∨ tree.HasFileAt (front ++ [name])) :
      PutStep tree (tree.put (.file content (tree.bodyAt (front ++ [name]))) (front ++ [name]))

/-- What has been written: the bytes are in the places of the files, there are directories on the
ways to them, and all else is as before. No file was on a way, and no directory in the place of a
file. -/
structure Written (before after : Tree) (files : List (Location × List UInt8))
    (ways : Location → Prop) : Prop where
  steps : Relation.ReflTransGen PutStep before after
  file : ∀ f ∈ files, after.surface f.1 = some (some (f.2, before.bodyAt f.1))
  way : ∀ q, ways q → after.surface q = some none
  other : ∀ q, (∀ f ∈ files, f.1 ≠ q) → ¬ ways q → after.surface q = before.surface q
  oldFile : ∀ f ∈ files, before.surface f.1 ≠ some none
  oldWay : ∀ q, ways q → before.surface q = none ∨ before.surface q = some none

variable {before middle after tree : Tree} {files files' : List (Location × List UInt8)}
  {ways ways' : Location → Prop} {here cwd place : Location} {names : List String} {p : Path}
  {content : List UInt8} {refusal? : Location → Option PathFault}

theorem Written.congr (h : before.Written after files ways) (hways : ∀ q, ways q ↔ ways' q) :
    before.Written after files ways' := by
  obtain rfl : ways = ways' := funext fun q => propext (hways q)
  exact h

/-- Files in different places are written one after the other. -/
theorem Written.trans (h : before.Written middle files ways)
    (h' : middle.Written after files' ways') (hd : ∀ f ∈ files, ∀ g ∈ files', f.1 ≠ g.1) :
    before.Written after (files ++ files') fun q => ways q ∨ ways' q := by
  -- what either writes is in the place where the other one finds or leaves it
  have hkeep : ∀ f ∈ files, after.surface f.1 = middle.surface f.1 := by
    intro f hf
    refine h'.other f.1 (fun g hg => (hd f hf g hg).symm) fun hw => ?_
    rcases h'.oldWay f.1 hw with ho | ho <;> simp [h.file f hf] at ho
  have hnew : ∀ g ∈ files', middle.surface g.1 = before.surface g.1 := by
    intro g hg
    exact h.other g.1 (fun f hf => hd f hf g hg) fun hw => h'.oldFile g hg (h.way g.1 hw)
  refine ⟨h.steps.trans h'.steps, ?_, ?_, ?_, ?_, ?_⟩
  · intro f hf
    rcases List.mem_append.mp hf with hf | hf
    · rw [hkeep f hf, h.file f hf]
    · rw [h'.file f hf, bodyAt, bodyAt, hnew f hf]
  · rintro q (hw | hw)
    · by_cases hw' : ways' q
      · exact h'.way q hw'
      · rw [h'.other q ?_ hw', h.way q hw]
        rintro g hg rfl
        exact h'.oldFile g hg (h.way g.1 hw)
    · exact h'.way q hw
  · intro q hf hw
    rw [h'.other q (fun g hg => hf g (List.mem_append_right _ hg)) (fun h => hw (Or.inr h)),
      h.other q (fun f hg => hf f (List.mem_append_left _ hg)) fun h => hw (Or.inl h)]
  · intro f hf
    rcases List.mem_append.mp hf with hf | hf
    · exact h.oldFile f hf
    · rw [← hnew f hf]
      exact h'.oldFile f hf
  · rintro q (hw | hw)
    · exact h.oldWay q hw
    · by_cases hw' : ways q
      · exact h.oldWay q hw'
      · rw [← h.other q ?_ hw']
        · exact h'.oldWay q hw
        · rintro f hf rfl
          rcases h'.oldWay f.1 hw with ho | ho <;> simp [h.file f hf] at ho

/-- What stands somewhere afterwards is decided by what stood there before and by what is written,
in whatever order. -/
theorem Written.surface_eq {after' : Tree} (h : before.Written after files ways)
    (h' : before.Written after' files' ways') (hfiles : ∀ f, f ∈ files ↔ f ∈ files')
    (hways : ∀ q, ways q ↔ ways' q) (q : Location) : after.surface q = after'.surface q := by
  by_cases hf : ∃ f ∈ files, f.1 = q
  · obtain ⟨f, hf, rfl⟩ := hf
    rw [h.file f hf, h'.file f ((hfiles f).mp hf)]
  · have hno : ∀ f ∈ files, f.1 ≠ q := fun f hm he => hf ⟨f, hm, he⟩
    by_cases hw : ways q
    · rw [h.way q hw, h'.way q ((hways q).mp hw)]
    · rw [h.other q hno hw,
        h'.other q (fun f hm => hno f ((hfiles f).mpr hm)) fun h => hw ((hways q).mpr h)]

/-- No directory is lost. -/
theorem Written.surface_directory (h : before.Written after files ways) {q : Location}
    (hq : before.surface q = some none) : after.surface q = some none := by
  by_cases hw : ways q
  · exact h.way q hw
  · rw [h.other q ?_ hw, hq]
    rintro f hf rfl
    exact h.oldFile f hf hq

theorem Written.hasDirectoryAt (h : before.Written after files ways) (hl : before.isLinkFree)
    (hl' : after.isLinkFree) {q : Location} (hq : before.HasDirectoryAt q) :
    after.HasDirectoryAt q :=
  (surface_eq_directory_iff hl').mp
    (h.surface_directory ((surface_eq_directory_iff hl).mpr hq))

theorem hasDirectoryAt_of_append {front back : Location} (h : tree.HasDirectoryAt (front ++ back)) :
    tree.HasDirectoryAt front := by
  obtain ⟨entries, ha⟩ := h
  by_cases hb : back = []
  · subst hb
    exact ⟨entries, by simpa using ha⟩
  · exact Node.directory_of_at?_append hb ha

theorem hasDirectoryAt_start (h : tree.HasDirectoryAt cwd) (p : Path) :
    tree.HasDirectoryAt (p.start cwd) := by
  unfold Path.start
  split
  · exact hasDirectoryAt_of_append h
  · exact h

/-- What a path leads to, if it is no directory, stands under the last name of the path. -/
theorem exists_parent_of_isPassable (hs : tree.HasDirectoryAt here)
    (hp : tree.IsPassable here names) (hn : ¬ tree.HasDirectoryAt (normalize here names)) :
    ∃ front last, names = front ++ [last] ∧ tree.HasDirectoryAt (normalize here front) ∧
      normalize here names = normalize here front ++ [last] := by
  rcases List.eq_nil_or_concat' names with rfl | ⟨front, last, rfl⟩
  · exact absurd hs hn
  · have hfront := hp front last [] rfl
    rw [normalize_append] at hn
    by_cases hlast : last = ".."
    · subst hlast
      refine absurd ?_ hn
      rcases List.eq_nil_or_concat' (normalize here front) with he | ⟨outer, name, he⟩
      · simpa [normalize, he] using hfront
      · rw [he] at hfront ⊢
        simpa [normalize] using hasDirectoryAt_of_append hfront
    · exact ⟨front, last, rfl, hfront, by simp [normalize_append, normalize, hlast]⟩

/-- The places that a path comes by before its own are directories. -/
theorem IsPassable.crosses_cases (h : tree.IsPassable (p.start cwd) p.parts) {q : Location}
    (hq : p.Crosses cwd q) : tree.HasDirectoryAt q ∨ q = p.place cwd := by
  obtain ⟨front, ⟨back, hback⟩, rfl⟩ := hq
  cases back with
  | nil => exact Or.inr (by rw [Path.place, ← hback, List.append_nil])
  | cons last back => exact Or.inl (h front last back hback.symm)

theorem crosses_place (p : Path) (cwd : Location) : p.Crosses cwd (p.place cwd) :=
  ⟨p.parts, List.prefix_rfl, rfl⟩

theorem written_of_isDirectory (hl : tree.isLinkFree) (h : tree.isDirectory cwd p) :
    tree.Written tree [] (p.Crosses cwd) := by
  obtain ⟨hp, hd⟩ := (isDirectory_iff hl).mp h
  have hcrossed : ∀ q, p.Crosses cwd q → tree.surface q = some none := by
    intro q hq
    refine (surface_eq_directory_iff hl).mpr ?_
    rcases hp.crosses_cases hq with h | rfl
    · exact h
    · exact hd
  exact ⟨.refl, by simp, hcrossed, fun _ _ _ => rfl, by simp, fun q hq => Or.inr (hcrossed q hq)⟩

theorem surface_ne_directory (hl : tree.isLinkFree)
    (ha : tree.at? place = none ∨ tree.HasFileAt place) : tree.surface place ≠ some none := by
  rw [Ne, surface_eq_directory_iff hl]
  rintro ⟨entries, hd⟩
  rcases ha with ha | ⟨content, body, ha⟩ <;> simp [hd] at ha

/-- What is put where a path leads, if there is no directory, is all that changes. -/
theorem IsPassable.exists_put (h : tree.IsPassable (p.start cwd) p.parts)
    (hcwd : tree.HasDirectoryAt cwd)
    (ha : tree.at? (p.place cwd) = none ∨ tree.HasFileAt (p.place cwd)) :
    ∃ directory, p.place cwd = directory ++ [p.name] ∧ tree.HasDirectoryAt directory ∧
      ∀ new : Node, new.IsLeaf → ∀ q, surface (tree.put new (p.place cwd)) q =
        if q = p.place cwd then some new.file? else tree.surface q := by
  have hno : ¬ tree.HasDirectoryAt (p.place cwd) := by
    rintro ⟨entries, hd⟩
    rcases ha with ha | ⟨content, body, ha⟩ <;> simp [hd] at ha
  obtain ⟨front, last, hparts, hd, hplace⟩ :=
    exists_parent_of_isPassable (hasDirectoryAt_start hcwd p) h hno
  have hname : p.name = last := by simp [Path.name, hparts]
  rw [← Path.place, ← hname] at hplace
  refine ⟨normalize (p.start cwd) front, hplace, hd, fun new hnew q => ?_⟩
  rw [hplace] at ha ⊢
  refine surface_put hd hnew (fun old hold => ?_) q
  rcases ha with ha | ⟨content, body, ha⟩
  · simp [ha] at hold
  · rw [ha] at hold
    cases hold
    exact Node.isLeaf_file

theorem written_makeDirectory {made : Tree} (hl : tree.isLinkFree) (hcwd : tree.HasDirectoryAt cwd)
    (h : tree.makeDirectory refusal? cwd p = .ok made) : tree.Written made [] (p.Crosses cwd) := by
  obtain ⟨place, hf, ha, -, rfl⟩ := makeDirectory_eq_ok_iff.mp h
  obtain ⟨hp, rfl⟩ := (find_eq_ok_iff hl).mp hf
  obtain ⟨directory, hplace, hd, hput⟩ := hp.exists_put hcwd (Or.inl ha)
  have hsurface := hput .empty Node.isLeaf_empty
  have hstep : tree.PutStep (tree.put .empty (p.place cwd)) := by
    rw [hplace] at ha ⊢
    exact .directory hd ha
  have hold : ∀ q, p.Crosses cwd q → q ≠ p.place cwd → tree.surface q = some none := by
    intro q hq hne
    exact (surface_eq_directory_iff hl).mpr ((hp.crosses_cases hq).resolve_right hne)
  refine ⟨.single hstep, by simp, ?_, ?_, by simp, ?_⟩
  · intro q hq
    rw [hsurface]
    split
    · rfl
    · rename_i hne
      exact hold q hq hne
  · intro q _ hq
    have hne : q ≠ p.place cwd := by
      rintro rfl
      exact hq (crosses_place p cwd)
    rw [hsurface, if_neg hne]
  · intro q hq
    by_cases hne : q = p.place cwd
    · exact Or.inl (surface_eq_none_iff.mpr (by rw [hne, ha]))
    · exact Or.inr (hold q hq hne)

/-- Bytes are put where nothing is or where a file is. -/
theorem written_putFile (hl : tree.isLinkFree) (hcwd : tree.HasDirectoryAt cwd)
    (hp : tree.IsPassable (p.start cwd) p.parts) (hn : p.suffix ≠ sourceExtension)
    (ha : tree.at? (p.place cwd) = none ∨ tree.HasFileAt (p.place cwd)) :
    tree.Written (tree.put (.file content (tree.bodyAt (p.place cwd))) (p.place cwd))
      [(p.place cwd, content)] fun _ => False := by
  obtain ⟨directory, hplace, hd, hput⟩ := hp.exists_put hcwd ha
  have hsurface := hput (.file content (tree.bodyAt (p.place cwd))) Node.isLeaf_file
  have hstep : tree.PutStep
      (tree.put (.file content (tree.bodyAt (p.place cwd))) (p.place cwd)) := by
    have hname : ¬ isSourceName p.name := by simpa [isSourceName, Path.suffix] using hn
    rw [hplace] at ha ⊢
    exact .file content hd hname ha
  refine ⟨.single hstep, ?_, by simp, ?_, ?_, by simp⟩
  · intro f hf
    obtain rfl := List.mem_singleton.mp hf
    simp [hsurface, Node.file?]
  · intro q hq _
    have hne : q ≠ p.place cwd := fun he => hq _ (List.mem_singleton_self _) he.symm
    rw [hsurface, if_neg hne]
  · intro f hf
    obtain rfl := List.mem_singleton.mp hf
    exact surface_ne_directory hl ha

/-- Writing puts the bytes where the path leads, with the body that is there, if no directory is. -/
theorem put_of_write {written : Tree} (hl : tree.isLinkFree)
    (h : tree.write refusal? cwd p content = .ok written) :
    tree.IsPassable (p.start cwd) p.parts ∧
      (tree.at? (p.place cwd) = none ∨ tree.HasFileAt (p.place cwd)) ∧
      written = tree.put (.file content (tree.bodyAt (p.place cwd))) (p.place cwd) := by
  obtain ⟨place, body, hf, ha, -, rfl⟩ := write_eq_ok_iff.mp h
  obtain ⟨hp, rfl⟩ := (find_eq_ok_iff hl).mp hf
  rcases ha with ⟨ha, rfl⟩ | ⟨old, ha⟩
  · exact ⟨hp, Or.inl ha, by rw [bodyAt_of_at?_eq_none ha]⟩
  · have hbody : tree.bodyAt (p.place cwd) = body :=
      bodyAt_of_surface (surface_eq_file_iff.mpr ha)
    exact ⟨hp, Or.inr ⟨old, body, ha⟩, by rw [hbody]⟩

/-- A file is written to its place. The name of a file that can be written is that of its place. -/
theorem written_write {written : Tree} (hl : tree.isLinkFree) (hcwd : tree.HasDirectoryAt cwd)
    (hn : p.suffix ≠ sourceExtension) (h : tree.write refusal? cwd p content = .ok written) :
    tree.Written written [(p.place cwd, content)] fun _ => False := by
  obtain ⟨hp, ha, rfl⟩ := put_of_write hl h
  exact written_putFile hl hcwd hp hn ha

end Tree

namespace World

open SymbolExport.Text

variable {w w' : World} {p : Path} {anchor : PathAnchor} {names : List String} {text : List Char}

theorem isDirectory_of_requireDirectory {fault : PathFault}
    (h : w.requireDirectory p fault = (.ok (), w')) : w' = w ∧ w.tree.isDirectory w.cwd p := by
  unfold requireDirectory at h
  split at h
  · rename_i hd
    cases h
    exact ⟨rfl, hd⟩
  · cases h

theorem written_makeDirectory (hl : w.tree.isLinkFree) (hcwd : w.tree.HasDirectoryAt w.cwd)
    (h : w.makeDirectory p = (.ok (), w')) : w.tree.Written w'.tree [] (p.Crosses w.cwd) := by
  unfold makeDirectory at h
  split at h
  · rename_i made hm
    cases h
    exact Tree.written_makeDirectory hl hcwd hm
  · obtain ⟨rfl, hd⟩ := isDirectory_of_requireDirectory h
    exact Tree.written_of_isDirectory hl hd

theorem written_makeDirectories (hl : w.tree.isLinkFree) (hcwd : w.tree.HasDirectoryAt w.cwd)
    (h : w.makeDirectories anchor names = (.ok (), w')) :
    w.tree.Written w'.tree [] (Path.Crosses ⟨anchor, names.reverse⟩ w.cwd) := by
  induction names generalizing w w' with
  | nil => exact written_makeDirectory hl hcwd h
  | cons name outer ih =>
    unfold makeDirectories at h
    dsimp only at h
    split at h
    · have hrestores := restores_makeDirectories w anchor outer
      cases hm : w.makeDirectories anchor outer with
      | mk result middle =>
        rw [hm] at h hrestores
        cases result with
        | error failure => cases h
        | ok =>
          have hfirst := ih hl hcwd hm
          have hlast := written_makeDirectory (hrestores.linkFree hl)
            (by rw [hrestores.cwd]; exact hfirst.hasDirectoryAt hl (hrestores.linkFree hl) hcwd) h
          rw [hrestores.cwd] at hlast
          refine (hfirst.trans hlast (by simp)).congr fun q => ?_
          refine or_iff_right_of_imp ?_
          rintro ⟨front, hfront, hq⟩
          refine ⟨front, hfront.trans ?_, hq⟩
          simp
    · obtain ⟨rfl, hd⟩ := isDirectory_of_requireDirectory h
      exact Tree.written_of_isDirectory hl hd
    · rename_i made hm
      cases h
      exact Tree.written_makeDirectory hl hcwd hm

/-- A text is written if it can be encoded and its bytes are written. -/
theorem writeFile_eq_ok_iff : w.writeFile p text = (.ok (), w') ↔
    w.encodeFault? text = none ∧ w.writeBytes p (encodeUtf8 text) = (.ok (), w') := by
  unfold writeFile
  cases w.encodeFault? text with
  | none => simp
  | some message =>
    obtain ⟨result, middle⟩ := w.writeBytes p []
    cases result <;> simp

/-- A text is not written if its file cannot be, or if the text cannot be encoded when the file has
been emptied. -/
theorem writeFile_error_cases {failure : Failure} (h : w.writeFile p text = (.error failure, w')) :
    (∃ bytes, w.writeBytes p bytes = (.error failure, w')) ∨
      ∃ message, w.encodeFault? text = some message ∧ failure = .unencodable message ∧
        w.writeBytes p [] = (.ok (), w') := by
  unfold writeFile at h
  split at h
  · exact Or.inl ⟨_, h⟩
  · rename_i message hfault
    generalize hw : w.writeBytes p [] = written at h
    obtain ⟨result, middle⟩ := written
    cases result with
    | error failure =>
      cases h
      exact Or.inl ⟨_, hw⟩
    | ok =>
      cases h
      exact Or.inr ⟨message, hfault, rfl, rfl⟩

/-- A file that is written is all that changes, but for new directories on the way to it. -/
theorem written_writeFile (hl : w.tree.isLinkFree) (hcwd : w.tree.HasDirectoryAt w.cwd)
    (hn : p.suffix ≠ sourceExtension) (h : w.writeFile p text = (.ok (), w')) :
    w.tree.Written w'.tree [(p.place w.cwd, encodeUtf8 text)] (p.parent.Crosses w.cwd) := by
  obtain ⟨-, h⟩ := writeFile_eq_ok_iff.mp h
  unfold writeBytes at h
  have hrestores := restores_makeDirectories w p.parent.anchor p.parent.parts.reverse
  cases hm : w.makeDirectories p.parent.anchor p.parent.parts.reverse with
  | mk result middle =>
    rw [hm] at h hrestores
    cases result with
    | error failure => cases h
    | ok =>
      have hmade := written_makeDirectories hl hcwd hm
      rw [List.reverse_reverse] at hmade
      dsimp only at h
      split at h
      · rename_i written hw
        cases h
        have hl' := hrestores.linkFree hl
        rw [hrestores.cwd, hrestores.refusal?] at hw
        have hwrite := Tree.written_write hl' (hmade.hasDirectoryAt hl hl' hcwd) hn hw
        exact (hmade.trans hwrite (by simp)).congr fun q => by simp
      · cases h

end World

end SymbolExport
