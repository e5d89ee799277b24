import SymbolExport.Tree.Resolve
import Mathlib

/-!
Paths that exist. The system follows a bounded number of links on the way to a file; resolving the
path meets the same links, never one of them while it is under way, and comes to the same place.
-/
namespace SymbolExport

theorem Node.at?_append (node : Node) (front back : Location) :
    node.at? (front ++ back) = (node.at? front).bind fun inner => inner.at? back := by
  induction front generalizing node with
  | nil => simp [at?]
  | cons name rest ih => simp [at?, Option.bind_assoc, ih]

/-- Only directories have something below them. -/
theorem Node.directory_of_at?_append {node inner : Node} {front back : Location} (hne : back ≠ [])
    (h : node.at? (front ++ back) = some inner) :
    ∃ entries, node.at? front = some (.directory entries) := by
  rw [at?_append, Option.bind_eq_some_iff] at h
  obtain ⟨middle, hm, hb⟩ := h
  obtain ⟨first, more, rfl⟩ := List.exists_cons_of_ne_nil hne
  cases middle with
  | directory entries => exact ⟨entries, hm⟩
  | file | link => simp [at?, entry?] at hb

namespace Tree

/-- Where the target of a link in a directory is sought. -/
def linkStart (here : Location) (target : String) : Location :=
  if (Path.ofString target).isAbsolute then [] else here

/-- Names lead from one place to another through what exists; the number counts the links that are
followed on the way. -/
inductive Leads (tree : Tree) : Location → List String → Nat → Location → Prop
  | stay {here : Location} : Leads tree here [] 0 here
  | parent {here place : Location} {rest : List String} {links : Nat}
      (h : Leads tree here.dropLast rest links place) : Leads tree here (".." :: rest) links place
  | step {here place : Location} {name : String} {rest : List String} {links : Nat} {node : Node}
      (hn : name ≠ "..") (ha : tree.at? (here ++ [name]) = some node)
      (hl : ∀ target, node ≠ .link target) (h : Leads tree (here ++ [name]) rest links place) :
      Leads tree here (name :: rest) links place
  | link {here place : Location} {name target : String} {rest : List String} {links : Nat}
      (hn : name ≠ "..") (ha : tree.at? (here ++ [name]) = some (.link target))
      (h : Leads tree (linkStart here target) ((Path.ofString target).parts ++ rest) links place) :
      Leads tree here (name :: rest) (links + 1) place

variable {tree : Tree} {node : Node} {names front back : List String} {here place other : Location}
  {links more depth : Nat} {pending : List Location}

theorem leads_of_locate (h : tree.locate true links here names = .ok place)
    (ha : tree.at? place = some node) : ∃ n ≤ links, tree.Leads here names n place := by
  fun_induction locate tree true links here names with
  | case1 links here =>
    cases h
    exact ⟨0, Nat.zero_le links, .stay⟩
  | case2 links here rest entries _ ih =>
    obtain ⟨n, hn, hl⟩ := ih h
    exact ⟨n, hn, .parent hl⟩
  | case5 here name rest entries _ hn target hlink _ links goal ih =>
    obtain ⟨n, hle, hl⟩ := ih h
    exact ⟨n + 1, Nat.succ_le_succ hle, .link hn hlink hl⟩
  | case6 links here name rest entries _ hn found hfound hat ih =>
    obtain ⟨n, hle, hl⟩ := ih h
    exact ⟨n, hle, .step hn hat (fun target ht => hfound target ht) hl⟩
  | case7 links here name rest entries _ hn hnone hempty =>
    cases h
    rw [hnone] at ha
    cases ha
  | case3 => simp_all
  | case4 | case8 | case9 | case10 => cases h

theorem Leads.unique (h : tree.Leads here names links place)
    (h' : tree.Leads here names more other) : links = more ∧ place = other := by
  induction h generalizing more other with
  | stay =>
    cases h'
    exact ⟨rfl, rfl⟩
  | parent _ ih =>
    cases h' with
    | parent h' => exact ih h'
    | step hn => exact absurd rfl hn
    | link hn => exact absurd rfl hn
  | step hn ha hl _ ih =>
    cases h' with
    | parent => exact absurd rfl hn
    | step _ _ _ h' => exact ih h'
    | link _ ha' =>
      rw [ha] at ha'
      exact absurd (Option.some.inj ha') (hl _)
  | link hn ha _ ih =>
    cases h' with
    | parent => exact absurd rfl hn
    | step _ ha' hl' =>
      rw [ha] at ha'
      exact absurd (Option.some.inj ha').symm (hl' _)
    | link _ ha' h' =>
      rw [ha] at ha'
      cases ha'
      obtain ⟨rfl, rfl⟩ := ih h'
      exact ⟨rfl, rfl⟩

theorem Leads.split (h : tree.Leads here (front ++ back) links place) :
    ∃ middle n m, tree.Leads here front n middle ∧ tree.Leads middle back m place ∧
      links = n + m := by
  generalize hnames : front ++ back = names at h
  induction h generalizing front with
  | @stay here =>
    obtain ⟨rfl, rfl⟩ := List.append_eq_nil_iff.mp hnames
    exact ⟨here, 0, 0, .stay, .stay, rfl⟩
  | @parent here place rest links h ih =>
    cases front with
    | nil =>
      obtain rfl : back = ".." :: rest := hnames
      exact ⟨here, 0, links, .stay, .parent h, (Nat.zero_add links).symm⟩
    | cons first front =>
      obtain ⟨rfl, hrest⟩ := List.cons.inj hnames
      obtain ⟨middle, n, m, hf, hb, hlinks⟩ := ih hrest
      exact ⟨middle, n, m, .parent hf, hb, hlinks⟩
  | @step here place name rest links node hn ha hl h ih =>
    cases front with
    | nil =>
      obtain rfl : back = name :: rest := hnames
      exact ⟨here, 0, links, .stay, .step hn ha hl h, (Nat.zero_add links).symm⟩
    | cons first front =>
      obtain ⟨rfl, hrest⟩ := List.cons.inj hnames
      obtain ⟨middle, n, m, hf, hb, hlinks⟩ := ih hrest
      exact ⟨middle, n, m, .step hn ha hl hf, hb, hlinks⟩
  | @link here place name target rest links hn ha h ih =>
    cases front with
    | nil =>
      obtain rfl : back = name :: rest := hnames
      exact ⟨here, 0, links + 1, .stay, .link hn ha h, (Nat.zero_add _).symm⟩
    | cons first front =>
      obtain ⟨rfl, hrest⟩ := List.cons.inj hnames
      have hall : (Path.ofString target).parts ++ front ++ back =
          (Path.ofString target).parts ++ rest := by
        rw [← hrest, List.append_assoc]
        rfl
      obtain ⟨middle, n, m, hf, hb, hlinks⟩ := ih hall
      exact ⟨middle, n + 1, m, .link hn ha hf, hb, by omega⟩

/-- The target of a link leads on through so many links. -/
def LinkLeads (tree : Tree) (link : Location) (links : Nat) : Prop :=
  ∃ target place, tree.at? link = some (.link target) ∧
    tree.Leads (linkStart link.dropLast target) (Path.ofString target).parts links place

theorem LinkLeads.unique {link : Location} (h : tree.LinkLeads link links)
    (h' : tree.LinkLeads link more) : links = more := by
  obtain ⟨target, place, ha, hl⟩ := h
  obtain ⟨target', place', ha', hl'⟩ := h'
  rw [ha] at ha'
  cases ha'
  exact (hl.unique hl').1

/-- A path that leads somewhere is resolved to that place. The links under way have at least as many
links before them as the rest of the path, so none of them is met again. -/
theorem Leads.follow_eq (h : tree.Leads here names links place) (hdepth : links ≤ depth)
    (hpending : ∀ link ∈ pending, ∃ n ≥ links, tree.LinkLeads link n) :
    tree.follow depth pending here names = .ok place := by
  induction links using Nat.strong_induction_on generalizing here names place depth pending with
  | _ links ihLinks =>
  induction names generalizing here with
  | nil =>
    cases h
    rw [follow]
  | cons name rest ihNames =>
    cases h with
    | parent h =>
      rw [follow, if_pos rfl]
      exact ihNames h
    | step hn ha hl h =>
      rw [follow, if_neg hn, ha]
      split
      · rename_i target he
        exact absurd (Option.some.inj he) (hl target)
      · exact ihNames h
    | @link _ _ _ target _ links hn ha h =>
      obtain ⟨middle, n, m, hgoal, hrest, rfl⟩ := h.split
      have hself : tree.LinkLeads (here ++ [name]) n :=
        ⟨target, middle, ha, by simpa using hgoal⟩
      obtain ⟨depth, rfl⟩ : ∃ d, depth = d + 1 := ⟨depth - 1, by omega⟩
      have hnew : here ++ [name] ∉ pending := by
        intro hm
        obtain ⟨k, hk, hlink⟩ := hpending _ hm
        have := hlink.unique hself
        omega
      have hinner : tree.follow depth ((here ++ [name]) :: pending) (linkStart here target)
          (Path.ofString target).parts = .ok middle := by
        refine ihLinks n (by omega) hgoal (by omega) ?_
        intro link hm
        rcases List.mem_cons.mp hm with rfl | hm
        · exact ⟨n, le_rfl, hself⟩
        · obtain ⟨k, hk, hlink⟩ := hpending link hm
          exact ⟨k, by omega, hlink⟩
      have houter : tree.follow (depth + 1) pending middle rest = .ok place := by
        refine ihLinks m (by omega) hrest (by omega) ?_
        intro link hm
        obtain ⟨k, hk, hlink⟩ := hpending link hm
        exact ⟨k, by omega, hlink⟩
      rw [follow, if_neg hn, ha]
      simp only [hnew, if_false]
      rw [linkStart] at hinner
      simp only [hinner, houter]

theorem Leads.parent_notMem (h : tree.Leads here names links place) (hh : ".." ∉ here) :
    ".." ∉ place := by
  induction h with
  | stay => exact hh
  | parent _ ih => exact ih (mt (fun hm => List.dropLast_subset _ hm) hh)
  | step hn _ _ _ ih => exact ih (by simp [hh, Ne.symm hn])
  | link _ _ _ ih =>
    refine ih ?_
    unfold linkStart
    split
    · simp
    · exact hh

/-- Names without links among them are taken one after the other. -/
theorem leads_append (hp : ".." ∉ names) (ha : tree.at? (here ++ names) = some node)
    (hl : ∀ target, node ≠ .link target) : tree.Leads here names 0 (here ++ names) := by
  induction names generalizing here with
  | nil => simpa using Leads.stay
  | cons name rest ih =>
    obtain ⟨hn, hr⟩ := not_or.mp (mt List.mem_cons.mpr hp)
    have hsplit : here ++ name :: rest = here ++ [name] ++ rest := by simp
    rw [hsplit] at ha ⊢
    have hrest := ih hr ha
    by_cases hne : rest = []
    · subst hne
      rw [List.append_nil] at ha hrest ⊢
      exact .step (Ne.symm hn) ha hl hrest
    · obtain ⟨entries, hd⟩ := Node.directory_of_at?_append hne ha
      exact .step (Ne.symm hn) hd (by simp) hrest

/-- What the system finds at a path. -/
theorem stat_eq_ok {cwd : Location} {p : Path} (h : tree.stat cwd p = .ok node) :
    ∃ n ≤ maxLinks, ∃ place, tree.at? place = some node ∧
      tree.Leads (if p.isAbsolute then [] else cwd) p.parts n place := by
  unfold stat find at h
  cases hl : tree.locate true maxLinks (if p.isAbsolute then [] else cwd) p.parts with
  | error fault =>
    rw [hl] at h
    cases h
  | ok place =>
    rw [hl] at h
    simp only [bind, Except.bind] at h
    split at h
    · rename_i found ha
      cases h
      obtain ⟨n, hn, hleads⟩ := leads_of_locate hl ha
      exact ⟨n, hn, place, ha, hleads⟩
    · cases h

theorem isDirectory_iff_stat {cwd : Location} {p : Path} :
    tree.isDirectory cwd p ↔ ∃ entries, tree.stat cwd p = .ok (.directory entries) := by
  unfold isDirectory
  split <;> simp_all

theorem isFile_iff_stat {cwd : Location} {p : Path} :
    tree.isFile cwd p ↔ ∃ content body, tree.stat cwd p = .ok (.file content body) := by
  unfold isFile
  split <;> simp_all

theorem Leads.resolve_eq {cwd : Location} {p : Path}
    (h : tree.Leads (if p.isAbsolute then [] else cwd) p.parts links place)
    (hlinks : links ≤ maxLinks) : tree.resolve cwd p = .ok place := by
  have hdepth : maxLinks ≤ maxDepth := by decide
  have hpending : ∀ link ∈ ([] : List Location), ∃ n ≥ links, tree.LinkLeads link n := by simp
  have hf := h.follow_eq (hlinks.trans hdepth) hpending
  simp [resolve, hf]

/-- A path at which something is found is resolved to the place of what is found. -/
theorem resolve_of_stat {cwd : Location} {p : Path} (h : tree.stat cwd p = .ok node) :
    ∃ place, tree.resolve cwd p = .ok place ∧ tree.at? place = some node := by
  obtain ⟨n, hn, place, ha, hleads⟩ := stat_eq_ok h
  exact ⟨place, hleads.resolve_eq hn, ha⟩

/-- The directory that holds a path can be resolved with it. -/
theorem resolve_parent_of_stat {cwd : Location} {p : Path} (h : tree.stat cwd p = .ok node) :
    ∃ place, tree.resolve cwd p.parent = .ok place := by
  obtain ⟨n, hn, place, ha, hleads⟩ := stat_eq_ok h
  have hparts : p.parts = p.parent.parts ++ p.parts.drop (p.parts.length - 1) := by
    rw [Path.parent, List.dropLast_eq_take, List.take_append_drop]
  rw [hparts] at hleads
  obtain ⟨middle, k, m, hfront, -, rfl⟩ := hleads.split
  exact ⟨middle, Leads.resolve_eq (p := p.parent) hfront (by omega)⟩

/-- A place where something stands is resolved to itself. -/
theorem resolve_ofLocation {cwd : Location} (hp : ".." ∉ place)
    (ha : tree.at? place = some node) (hl : ∀ target, node ≠ .link target) :
    tree.resolve cwd (.ofLocation place) = .ok place := by
  have hleads : tree.Leads [] place 0 place := leads_append hp ha hl
  exact hleads.resolve_eq (p := .ofLocation place) (Nat.zero_le _)

end Tree

end SymbolExport
