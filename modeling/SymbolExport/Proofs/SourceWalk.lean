import SymbolExport.Proofs.Surface
import SymbolExport.Proofs.UnitName

/-!
What a walk finds when something is put into a tree. A file without the suffix of sources, or an
empty directory, adds nothing to the sources, and sorting what is left does not see it.
-/
namespace SymbolExport

section

variable {α : Type} {le : α → α → Bool} {p : α → Bool}

theorem eq_of_append_eq_append {front back front' back' : List α}
    (h : front ++ back = front' ++ back') (hf : ∀ a ∈ front, p a) (hb : ∀ a ∈ back, ¬ p a)
    (hf' : ∀ a ∈ front', p a) (hb' : ∀ a ∈ back', ¬ p a) : front = front' ∧ back = back' := by
  have hsplit : front = front' := by
    have htake {xs ys : List α} (hx : ∀ a ∈ xs, p a) (hy : ∀ a ∈ ys, ¬ p a) :
        (xs ++ ys).takeWhile p = xs := by
      rw [List.takeWhile_append_of_pos hx]
      cases ys with
      | nil => simp
      | cons y rest => simp [hy y (by simp)]
    rw [← htake hf hb, h, htake hf' hb']
  subst hsplit
  exact ⟨rfl, List.append_cancel_left h⟩

/-- Sorting and leaving out go in either order, for equal elements keep theirs. -/
theorem filter_mergeSort (trans : ∀ a b c, le a b → le b c → le a c)
    (total : ∀ a b, le a b || le b a) (xs : List α) :
    (xs.mergeSort le).filter p = (xs.filter p).mergeSort le := by
  have hsplit (a : α) (xs : List α) : ∃ front back, (a :: xs).mergeSort le = front ++ a :: back ∧
      xs.mergeSort le = front ++ back ∧ (∀ b ∈ front, !le a b) ∧ ∀ b ∈ back, ¬ !le a b := by
    obtain ⟨front, back, h, hrest, hfront⟩ := List.mergeSort_cons trans total a xs
    have hsorted := List.pairwise_mergeSort trans total (a :: xs)
    rw [h] at hsorted
    refine ⟨front, back, h, hrest, hfront, fun b hb => ?_⟩
    simpa using (List.pairwise_cons.mp (List.pairwise_append.mp hsorted).2.1).1 b hb
  induction xs with
  | nil => simp
  | cons a xs ih =>
    -- sorting puts `a` between what is less and the rest, and the test cuts both parts alike
    obtain ⟨front, back, h, hrest, hfront, hback⟩ := hsplit a xs
    by_cases ha : p a
    · obtain ⟨front', back', h', hrest', hfront', hback'⟩ := hsplit a (xs.filter p)
      rw [← ih, hrest, List.filter_append] at hrest'
      obtain ⟨rfl, rfl⟩ := eq_of_append_eq_append hrest'
        (fun b hb => hfront b (List.mem_of_mem_filter hb))
        (fun b hb => hback b (List.mem_of_mem_filter hb)) hfront' hback'
      rw [List.filter_cons_of_pos ha, h', h]
      simp [ha]
    · rw [List.filter_cons_of_neg ha, ← ih, h, hrest]
      simp [ha]

end

variable {entries : List (String × Node)} {node new v : Node} {name : String} {here : Location}

section

variable {α : Type}

theorem decide_le_trans (a b c : String × α) (hab : decide (a.1 ≤ b.1)) (hbc : decide (b.1 ≤ c.1)) :
    decide (a.1 ≤ c.1) :=
  decide_eq_true (String.le_trans (of_decide_eq_true hab) (of_decide_eq_true hbc))

theorem decide_le_total (a b : String × α) : decide (a.1 ≤ b.1) || decide (b.1 ≤ a.1) := by
  simpa using String.le_total a.1 b.1

theorem filter_sortByName (p : String × α → Bool) (entries : List (String × α)) :
    (sortByName entries).filter p = sortByName (entries.filter p) :=
  filter_mergeSort decide_le_trans decide_le_total entries

end

theorem names_sortByName {α : Type} (entries : List (String × α)) :
    (sortByName entries).map Prod.fst = (entries.map Prod.fst).mergeSort (· ≤ ·) :=
  List.map_mergeSort (by simp)

/-- Whether a name has the suffix of sources. -/
def isSourceName (name : String) : Bool :=
  Path.suffixOf name = sourceExtension

namespace Node

/-- Whether an entry is a source of its directory. -/
def isSource (name : String) (node : Node) : Bool :=
  !node.isDirectory && isSourceName name

/-- What a walk finds that may be a source. -/
def sourcesBelow (here : Location) (node : Node) : List (String × Location) :=
  (node.filesBelow here).filter fun entry => isSourceName entry.1

/-- The sources inside the directories among the entries, for those that have any. -/
def sourcesInside (here : Location) :
    List (String × Node) → List (String × List (String × Location))
  | [] => []
  | (name, node) :: rest =>
    if isEntered name && !(node.sourcesBelow (here ++ [name])).isEmpty then
      (name, node.sourcesBelow (here ++ [name])) :: sourcesInside here rest
    else sourcesInside here rest

theorem sourcesInside_eq (here : Location) (entries : List (String × Node)) :
    sourcesInside here entries =
      ((filesInside here entries).map fun sub =>
        (sub.1, sub.2.filter fun entry => isSourceName entry.1)).filter
          fun sub => !sub.2.isEmpty := by
  induction entries with
  | nil => rfl
  | cons entry rest ih =>
    obtain ⟨name, node⟩ := entry
    rw [sourcesInside, filesInside, ih]
    by_cases hn : isEntered name
    · simp only [hn, Bool.true_and, if_true, List.map_cons, List.filter_cons]
      rfl
    · simp [hn]

theorem flatten_filter_nonempty {α β : Type} (subs : List (α × List β)) :
    ((subs.filter fun sub => !sub.2.isEmpty).map Prod.snd).flatten =
      (subs.map Prod.snd).flatten := by
  induction subs with
  | nil => rfl
  | cons sub rest ih =>
    by_cases h : sub.2 = [] <;> simp [h, ih]

/-- The sources of a directory are its own by name, then those inside of its directories by name. -/
theorem sourcesBelow_directory (here : Location) (entries : List (String × Node)) :
    (directory entries).sourcesBelow here =
      (((entries.filter fun entry => entry.2.isSource entry.1).map Prod.fst).mergeSort
          (· ≤ ·)).map (fun name => (name, here ++ [name])) ++
        ((sortByName (sourcesInside here entries)).map Prod.snd).flatten := by
  have hown : ((sortByName (entries.filter fun entry => !entry.2.isDirectory)).map
      fun entry => (entry.1, here ++ [entry.1])).filter (fun entry => isSourceName entry.1) =
        (((entries.filter fun entry => entry.2.isSource entry.1).map Prod.fst).mergeSort
          (· ≤ ·)).map fun name => (name, here ++ [name]) := by
    rw [List.filter_map, ← names_sortByName, List.map_map]
    have hfilter := filter_sortByName (fun entry : String × Node => isSourceName entry.1)
      (entries.filter fun entry => !entry.2.isDirectory)
    rw [List.filter_filter] at hfilter
    simp only [Function.comp_def]
    rw [hfilter]
    simp only [isSource, Bool.and_comm]
  have hinside : ((sortByName (filesInside here entries)).map Prod.snd).flatten.filter
      (fun entry => isSourceName entry.1) =
        ((sortByName (sourcesInside here entries)).map Prod.snd).flatten := by
    rw [sourcesInside_eq, ← filter_sortByName, flatten_filter_nonempty, List.filter_flatten]
    congr 1
    rw [sortByName, sortByName, ← List.map_mergeSort (r := fun a b => decide (a.1 ≤ b.1)) (by simp)]
    simp
  rw [sourcesBelow, filesBelow, List.filter_append, hown, hinside]

theorem sourcesBelow_empty (here : Location) : empty.sourcesBelow here = [] := by
  simp [sourcesBelow, empty, filesBelow, filesInside, sortByName]

theorem names_filter_insert
    (h : v.isSource name = ((Table.get? entries name).getD empty).isSource name) :
    ((Table.insert name v entries).filter fun entry => entry.2.isSource entry.1).map Prod.fst =
      (entries.filter fun entry => entry.2.isSource entry.1).map Prod.fst := by
  induction entries with
  | nil =>
    have hv : v.isSource name = false := h
    simp [Table.insert, hv]
  | cons entry rest ih =>
    by_cases hn : entry.1 = name
    · subst hn
      have hv : v.isSource entry.1 = entry.2.isSource entry.1 := by simpa [Table.get?] using h
      simp only [Table.insert, if_true, List.filter_cons, hv]
      split <;> rfl
    · have hrest := ih (by simpa [Table.get?, hn] using h)
      simp only [Table.insert, hn, if_false, List.filter_cons]
      split
      · rw [List.map_cons, List.map_cons, hrest]
      · exact hrest

theorem sourcesInside_insert (h : v.sourcesBelow (here ++ [name]) =
    ((Table.get? entries name).getD empty).sourcesBelow (here ++ [name])) :
    sourcesInside here (Table.insert name v entries) = sourcesInside here entries := by
  induction entries with
  | nil =>
    have hv : v.sourcesBelow (here ++ [name]) = [] := h.trans (sourcesBelow_empty _)
    simp [Table.insert, sourcesInside, hv]
  | cons entry rest ih =>
    obtain ⟨first, node⟩ := entry
    by_cases hn : first = name
    · subst hn
      have hv : v.sourcesBelow (here ++ [first]) = node.sourcesBelow (here ++ [first]) := by
        simpa [Table.get?] using h
      simp only [Table.insert, if_true, sourcesInside, hv]
    · have hrest := ih (by simpa [Table.get?, hn] using h)
      simp only [Table.insert, hn, if_false, sourcesInside, hrest]

theorem sourcesBelow_insert
    (hown : v.isSource name = ((Table.get? entries name).getD empty).isSource name)
    (hbelow : v.sourcesBelow (here ++ [name]) =
      ((Table.get? entries name).getD empty).sourcesBelow (here ++ [name])) :
    (directory (Table.insert name v entries)).sourcesBelow here =
      (directory entries).sourcesBelow here := by
  rw [sourcesBelow_directory, sourcesBelow_directory, names_filter_insert hown,
    sourcesInside_insert hbelow]

/-- A put changes the sources below a node no more than those at its own place. -/
theorem sourcesBelow_put {path : Location} (hne : path ≠ [])
    (hown : new.isSource (path.getLast hne) =
      ((node.at? path).getD empty).isSource (path.getLast hne))
    (hbelow : new.sourcesBelow (here ++ path) =
      ((node.at? path).getD empty).sourcesBelow (here ++ path)) :
    (node.put new path).isDirectory = node.isDirectory ∧
      (node.put new path).sourcesBelow here = node.sourcesBelow here := by
  induction path generalizing node here with
  | nil => exact absurd rfl hne
  | cons name rest ih =>
    cases node with
    | file | link => exact ⟨rfl, rfl⟩
    | directory entries =>
      rw [put_cons]
      refine ⟨rfl, ?_⟩
      have hat : (directory entries).at? (name :: rest) =
          (Table.get? entries name).bind fun child => child.at? rest := rfl
      rw [hat] at hown hbelow
      by_cases hr : rest = []
      · subst hr
        simp only [at?, List.getLast_singleton] at hown hbelow
        exact sourcesBelow_insert (by simpa [put] using hown) (by simpa [put] using hbelow)
      · have hchild : ((Table.get? entries name).bind fun child => child.at? rest) =
            ((Table.get? entries name).getD empty).at? rest := by
          cases Table.get? entries name with
          | none => exact (isLeaf_empty.at?_eq_none hr).symm
          | some child => rfl
        rw [hchild] at hown hbelow
        rw [List.getLast_cons hr] at hown
        rw [List.append_cons] at hbelow
        obtain ⟨hdirectory, hsources⟩ := ih hr hown hbelow
        exact sourcesBelow_insert (by rw [isSource, isSource, hdirectory]) hsources

end Node

end SymbolExport
