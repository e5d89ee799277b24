import SymbolExport.Import
import Mathlib

/-! Dotted names of modules and their components. -/
namespace SymbolExport

theorem splitDots_ne_nil (cs : List Char) : splitDots cs ≠ [] := by
  cases cs with
  | nil => simp [splitDots]
  | cons c rest =>
    unfold splitDots
    split
    · simp
    · split <;> simp

theorem dot_notMem_splitDots {cs name : List Char} (h : name ∈ splitDots cs) : '.' ∉ name := by
  induction cs generalizing name with
  | nil =>
    have hn : name = [] := by simpa [splitDots] using h
    simp [hn]
  | cons c rest ih =>
    unfold splitDots at h
    split at h
    · rcases List.mem_cons.mp h with rfl | h
      · simp
      · exact ih h
    · rename_i hc
      split at h
      · have hn : name = [c] := by simpa using h
        simpa [hn] using Ne.symm hc
      · rename_i first more he
        rw [he] at ih
        rcases List.mem_cons.mp h with rfl | h
        · have hf := ih List.mem_cons_self
          simp [Ne.symm hc, hf]
        · exact ih (List.mem_cons_of_mem _ h)

theorem splitDots_of_notMem {name : List Char} (h : '.' ∉ name) : splitDots name = [name] := by
  induction name with
  | nil => rfl
  | cons c rest ih =>
    obtain ⟨hc, hr⟩ := not_or.mp (mt List.mem_cons.mpr h)
    simp [splitDots, Ne.symm hc, ih hr]

theorem splitDots_append {name : List Char} (h : '.' ∉ name) (rest : List Char) :
    splitDots (name ++ '.' :: rest) = name :: splitDots rest := by
  induction name with
  | nil => simp [splitDots]
  | cons c name ih =>
    obtain ⟨hc, hn⟩ := not_or.mp (mt List.mem_cons.mpr h)
    simp [splitDots, Ne.symm hc, ih hn]

theorem splitDots_intercalate {names : List (List Char)} (hne : names ≠ [])
    (h : ∀ name ∈ names, '.' ∉ name) : splitDots (['.'].intercalate names) = names := by
  induction names with
  | nil => exact absurd rfl hne
  | cons name rest ih =>
    have hn := h name List.mem_cons_self
    have hr := fun n hm => h n (List.mem_cons_of_mem name hm)
    cases rest with
    | nil => simpa using splitDots_of_notMem hn
    | cons next more =>
      rw [List.intercalate_cons_cons, List.append_assoc, List.singleton_append,
        splitDots_append hn, ih (by simp) hr]

theorem intercalate_splitDots (cs : List Char) : ['.'].intercalate (splitDots cs) = cs := by
  induction cs with
  | nil => rfl
  | cons c rest ih =>
    unfold splitDots
    split
    · rename_i hc
      rw [List.intercalate_cons_of_ne_nil (splitDots_ne_nil rest), ih, hc]
      rfl
    · split
      · rename_i he
        exact absurd he (splitDots_ne_nil rest)
      · rename_i first more he
        rw [he] at ih
        rw [← ih]
        cases more <;> simp

/-- Components of a dotted name, the last one first. Dots only part them, and the name does not
begin with a dot. -/
structure IsModuleName (reversed : List String) : Prop where
  ne_nil : reversed ≠ []
  dotFree : ∀ component ∈ reversed, '.' ∉ component.toList
  first_ne_empty : reversed.getLast? ≠ some ""

theorem IsModuleName.of_suffix {reversed inner : List String} (h : IsModuleName reversed)
    (hi : inner <:+ reversed) (hne : inner ≠ []) : IsModuleName inner where
  ne_nil := hne
  dotFree := fun c hc => h.dotFree c (hi.subset hc)
  first_ne_empty := by
    obtain ⟨front, rfl⟩ := hi
    have hf := h.first_ne_empty
    rwa [List.getLast?_append_of_ne_nil front hne] at hf

theorem IsModuleName.tail {name : String} {outer : List String}
    (h : IsModuleName (name :: outer)) (hne : outer ≠ []) : IsModuleName outer :=
  h.of_suffix (List.suffix_cons name outer) hne

theorem IsModuleName.cons {name : String} {outer : List String} (h : IsModuleName outer)
    (hn : '.' ∉ name.toList) : IsModuleName (name :: outer) where
  ne_nil := List.cons_ne_nil name outer
  dotFree := by simpa [hn] using h.dotFree
  first_ne_empty := by rw [List.getLast?_cons_of_ne_nil h.ne_nil]; exact h.first_ne_empty

theorem head?_splitDots {c : Char} (hc : c ≠ '.') (rest : List Char) :
    (splitDots (c :: rest)).head? ≠ some [] := by
  rw [splitDots, if_neg hc]
  split <;> simp

theorem dot_notMem_componentsOf {name component : String} (h : component ∈ componentsOf name) :
    '.' ∉ component.toList := by
  simp only [componentsOf, List.mem_reverse, List.mem_map] at h
  obtain ⟨cs, hcs, rfl⟩ := h
  simpa using dot_notMem_splitDots hcs

theorem componentsOf_ne_nil (name : String) : componentsOf name ≠ [] := by
  simpa [componentsOf] using splitDots_ne_nil name.toList

theorem isModuleName_componentsOf {name : String} {c : Char} {rest : List Char}
    (h : name.toList = c :: rest) (hc : c ≠ '.') : IsModuleName (componentsOf name) where
  ne_nil := componentsOf_ne_nil name
  dotFree := fun _ hm => dot_notMem_componentsOf hm
  first_ne_empty := by
    have hs := head?_splitDots hc rest
    simpa [componentsOf, h] using hs

theorem toList_dottedName (reversed : List String) :
    (dottedName reversed).toList = ['.'].intercalate (reversed.reverse.map String.toList) := by
  rw [dottedName, String.toList_intercalate]
  rfl

theorem componentsOf_dottedName {reversed : List String} (hne : reversed ≠ [])
    (h : ∀ component ∈ reversed, '.' ∉ component.toList) :
    componentsOf (dottedName reversed) = reversed := by
  have hs : splitDots (dottedName reversed).toList = reversed.reverse.map String.toList := by
    rw [toList_dottedName]
    exact splitDots_intercalate (by simpa using hne) (by simpa using h)
  simp [componentsOf, hs, Function.comp_def]

theorem IsModuleName.componentsOf_dottedName {reversed : List String} (h : IsModuleName reversed) :
    componentsOf (dottedName reversed) = reversed :=
  SymbolExport.componentsOf_dottedName h.ne_nil h.dotFree

theorem dottedName_componentsOf (name : String) : dottedName (componentsOf name) = name := by
  have hl : (dottedName (componentsOf name)).toList = name.toList := by
    simp [toList_dottedName, componentsOf, Function.comp_def, intercalate_splitDots]
  exact String.toList_inj.mp hl

theorem dottedName_inj {a b : List String} (ha : IsModuleName a) (hb : IsModuleName b)
    (h : dottedName a = dottedName b) : a = b := by
  rw [← ha.componentsOf_dottedName, h, hb.componentsOf_dottedName]

theorem dottedName_ne_empty {reversed : List String} (h : IsModuleName reversed) :
    dottedName reversed ≠ "" := by
  intro he
  have hc := h.componentsOf_dottedName
  rw [he] at hc
  exact h.first_ne_empty (by rw [← hc]; rfl)

/-- The part of a module name outside of its last component is told from other names, even if it is
empty. -/
theorem eq_outer_of_dottedName {name : String} {outer reversed : List String}
    (hn : IsModuleName (name :: outer)) (hr : IsModuleName reversed)
    (h : dottedName reversed = dottedName outer) : reversed = outer := by
  cases outer with
  | nil => exact absurd h (dottedName_ne_empty hr)
  | cons next more => exact dottedName_inj hr (hn.tail (by simp)) h

theorem not_isModuleName_componentsOf {name : String}
    (h : name.toList = [] ∨ ∃ rest, name.toList = '.' :: rest) :
    ¬ IsModuleName (componentsOf name) := by
  intro hn
  apply hn.first_ne_empty
  rcases h with h | ⟨rest, h⟩ <;> simp [componentsOf, h, splitDots]

theorem dottedName_cons (name : String) {outer : List String} (h : outer ≠ []) :
    dottedName (name :: outer) = dottedName outer ++ "." ++ name := by
  rw [dottedName, List.reverse_cons,
    String.intercalate_append_of_ne_nil (by simpa using h) (by simp), String.intercalate_singleton]
  rfl

end SymbolExport
