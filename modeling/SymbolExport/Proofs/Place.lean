import SymbolExport.Proofs.LinkFree
import SymbolExport.Proofs.Resolution

/-!
Places in trees without links. A path leads somewhere if there is a directory behind each of its
names but the last, and it leads where its names say.
-/
namespace SymbolExport

/-- Whether a directory stands at a place. -/
def Tree.HasDirectoryAt (tree : Tree) (place : Location) : Prop :=
  ∃ entries, tree.at? place = some (.directory entries)

/-- Whether a file stands at a place. -/
def Tree.HasFileAt (tree : Tree) (place : Location) : Prop :=
  ∃ content body, tree.at? place = some (.file content body)

/-- Where a path starts. -/
def Path.start (p : Path) (cwd : Location) : Location :=
  if p.isAbsolute then [] else cwd

/-- The place that the names of a path say. -/
def Path.place (p : Path) (cwd : Location) : Location :=
  normalize (p.start cwd) p.parts

/-- Behind each name but the last a directory is reached. -/
def Tree.IsPassable (tree : Tree) (here : Location) (names : List String) : Prop :=
  ∀ front last back, names = front ++ last :: back → tree.HasDirectoryAt (normalize here front)

variable {tree : Tree} {node : Node} {here place cwd : Location} {name : String}
  {names rest : List String} {p : Path} {followLast : Bool} {links : Nat}

theorem normalize_append (here : Location) (front back : List String) :
    normalize here (front ++ back) = normalize (normalize here front) back := by
  induction front generalizing here with
  | nil => rfl
  | cons name rest ih =>
    rw [List.cons_append, normalize, normalize]
    split <;> exact ih _

namespace Tree

theorem isPassable_nil : tree.IsPassable here [] := by
  intro front last back h
  simp at h

theorem isPassable_cons_iff : tree.IsPassable here (name :: rest) ↔
    tree.HasDirectoryAt here ∧ tree.IsPassable (normalize here [name]) rest := by
  constructor
  · intro h
    refine ⟨h [] name rest rfl, ?_⟩
    intro front last back he
    rw [← normalize_append]
    exact h (name :: front) last back (by rw [he]; rfl)
  · rintro ⟨hd, hr⟩ front last back he
    cases front with
    | nil => exact hd
    | cons first front =>
      obtain ⟨rfl, hrest⟩ := List.cons.inj he
      have := hr front last back hrest
      rwa [← normalize_append] at this

theorem not_isPassable_of_missing (ha : tree.at? here = none) (hne : names ≠ []) :
    ¬ tree.IsPassable here names := by
  obtain ⟨first, more, rfl⟩ := List.exists_cons_of_ne_nil hne
  rintro hp
  obtain ⟨⟨entries, hd⟩, -⟩ := isPassable_cons_iff.mp hp
  rw [ha] at hd
  cases hd

/-- Names lead to a place exactly if they can be passed. -/
theorem locate_eq_ok_iff (h : tree.isLinkFree) :
    tree.locate followLast links here names = .ok place ↔
      tree.IsPassable here names ∧ place = normalize here names := by
  induction names generalizing here with
  | nil => simp [locate, isPassable_nil, normalize, eq_comm]
  | cons name rest ih =>
    rw [locate, isPassable_cons_iff]
    have hhead : ∀ node, tree.at? here = some node → (∀ entries, node ≠ .directory entries) →
        ¬ tree.HasDirectoryAt here := by
      rintro node ha hne ⟨entries, hd⟩
      rw [ha] at hd
      exact hne entries (Option.some.inj hd)
    have hstep : normalize here (name :: rest) = normalize (normalize here [name]) rest :=
      normalize_append here [name] rest
    rw [hstep]
    split
    · rename_i entries hd
      have hdirectory : tree.HasDirectoryAt here := ⟨entries, hd⟩
      simp only [hdirectory, true_and]
      by_cases hn : name = ".."
      · simp only [hn, if_true]
        exact ih
      · have hone : normalize here [name] = here ++ [name] := by simp [normalize, hn]
        simp only [hn, if_false, hone]
        split
        · rename_i target ha
          exact absurd ha (Node.at?_ne_link h _ target)
        · exact ih
        · rename_i ha
          split
          · rename_i hempty
            obtain rfl := List.isEmpty_iff.mp hempty
            simp [isPassable_nil, normalize, eq_comm]
          · rename_i hempty
            have hno := not_isPassable_of_missing ha (mt List.isEmpty_iff.mpr hempty)
            simp [hno]
    · rename_i node hne ha
      have hno := hhead node ha (fun entries he => hne entries he)
      simp [hno]
    · rename_i ha
      have hno : ¬ tree.HasDirectoryAt here := by
        rintro ⟨entries, hd⟩
        rw [ha] at hd
        cases hd
      simp [hno]

/-- What stands somewhere can be reached by its names. -/
theorem isPassable_of_at? (hp : ".." ∉ names) (ha : tree.at? (here ++ names) = some node) :
    tree.IsPassable here names := by
  rintro front last back rfl
  rw [normalize_of_notMem (fun hm => hp (List.mem_append_left _ hm))]
  rw [← List.append_assoc] at ha
  exact Node.directory_of_at?_append (List.cons_ne_nil last back) ha

theorem find_eq_ok_iff (h : tree.isLinkFree) : tree.find cwd p followLast = .ok place ↔
    tree.IsPassable (p.start cwd) p.parts ∧ place = p.place cwd :=
  locate_eq_ok_iff h

theorem stat_eq_ok_iff (h : tree.isLinkFree) : tree.stat cwd p = .ok node ↔
    tree.IsPassable (p.start cwd) p.parts ∧ tree.at? (p.place cwd) = some node := by
  unfold stat
  cases hf : tree.find cwd p true with
  | error fault =>
    have hno : ¬ tree.IsPassable (p.start cwd) p.parts := by
      intro hp
      rw [(find_eq_ok_iff h).mpr ⟨hp, rfl⟩] at hf
      cases hf
    simp [bind, Except.bind, hno]
  | ok found =>
    obtain ⟨hp, rfl⟩ := (find_eq_ok_iff h).mp hf
    simp only [bind, Except.bind, hp, true_and]
    split <;> simp_all

theorem isDirectory_iff (h : tree.isLinkFree) : tree.isDirectory cwd p ↔
    tree.IsPassable (p.start cwd) p.parts ∧ tree.HasDirectoryAt (p.place cwd) := by
  simp only [isDirectory_iff_stat, stat_eq_ok_iff h, exists_and_left]
  rfl

theorem isFile_iff (h : tree.isLinkFree) : tree.isFile cwd p ↔
    tree.IsPassable (p.start cwd) p.parts ∧ tree.HasFileAt (p.place cwd) := by
  simp only [isFile_iff_stat, stat_eq_ok_iff h, exists_and_left]
  rfl

theorem isPassable_ofLocation (hp : ".." ∉ place) (ha : tree.at? place = some node) :
    tree.IsPassable ((Path.ofLocation place).start cwd) place :=
  isPassable_of_at? hp ha

theorem stat_ofLocation_iff (h : tree.isLinkFree) (hp : ".." ∉ place) :
    tree.stat cwd (.ofLocation place) = .ok node ↔ tree.at? place = some node := by
  have hplace : (Path.ofLocation place).place cwd = place := normalize_of_notMem hp []
  rw [stat_eq_ok_iff h, hplace]
  exact ⟨And.right, fun ha => ⟨isPassable_ofLocation hp ha, ha⟩⟩

theorem read_ofLocation {content : List UInt8} {body : ModuleBody} (h : tree.isLinkFree)
    (hp : ".." ∉ place) (ha : tree.at? place = some (.file content body)) :
    tree.read cwd (.ofLocation place) = .ok content := by
  simp [read, (stat_ofLocation_iff h hp).mpr ha]

theorem isFile_ofLocation_iff (h : tree.isLinkFree) (hp : ".." ∉ place) :
    tree.isFile cwd (.ofLocation place) ↔ tree.HasFileAt place := by
  have hplace : (Path.ofLocation place).place cwd = place := normalize_of_notMem hp []
  rw [isFile_iff h, hplace]
  refine ⟨And.right, ?_⟩
  rintro ⟨content, body, ha⟩
  exact ⟨isPassable_ofLocation hp ha, content, body, ha⟩

theorem isDirectory_ofLocation_iff (h : tree.isLinkFree) (hp : ".." ∉ place) :
    tree.isDirectory cwd (.ofLocation place) ↔ tree.HasDirectoryAt place := by
  have hplace : (Path.ofLocation place).place cwd = place := normalize_of_notMem hp []
  rw [isDirectory_iff h, hplace]
  refine ⟨And.right, ?_⟩
  rintro ⟨entries, ha⟩
  exact ⟨isPassable_ofLocation hp ha, entries, ha⟩

end Tree

end SymbolExport
