import SymbolExport.Proofs.Output

/-!
The texts of paths. A path whose names are plain is read back from its text; reading gives plain
names, and what is made of plain paths is plain.
-/
namespace SymbolExport

/-- A name that a path keeps as it is read. -/
structure IsPlainName (name : String) : Prop where
  ne_empty : name ≠ ""
  ne_dot : name ≠ "."
  slashFree : '/' ∉ name.toList

def Path.IsPlain (p : Path) : Prop :=
  ∀ name ∈ p.parts, IsPlainName name

variable {p q : Path} {name : String} {names : List String} {place home : Location}
  {cs : List Char}

namespace Path

theorem splitSlashes_eq_splitOn (cs : List Char) : splitSlashes cs = cs.splitOn '/' := by
  induction cs with
  | nil => rfl
  | cons c rest ih =>
    rw [splitSlashes, ih, List.splitOn_cons_eq_if_modifyHead]
    by_cases hc : c = '/'
    · simp [hc]
    · obtain ⟨first, more, he⟩ := List.exists_cons_of_ne_nil (List.splitOn_ne_nil '/' rest)
      simp [hc, he]

theorem slash_notMem_of_mem_splitSlashes {segment : List Char} (h : segment ∈ splitSlashes cs) :
    '/' ∉ segment := by
  induction cs generalizing segment with
  | nil =>
    obtain rfl := List.mem_singleton.mp h
    exact List.not_mem_nil
  | cons c rest ih =>
    obtain ⟨first, more, he⟩ := List.exists_cons_of_ne_nil
      (splitSlashes_eq_splitOn rest ▸ List.splitOn_ne_nil '/' rest)
    rw [splitSlashes, he] at h
    rw [he] at ih
    by_cases hc : c = '/'
    · rw [if_pos hc] at h
      rcases List.mem_cons.mp h with rfl | h
      · exact List.not_mem_nil
      · exact ih h
    · rw [if_neg hc] at h
      rcases List.mem_cons.mp h with rfl | h
      · intro hm
        rcases List.mem_cons.mp hm with rfl | hm
        · exact hc rfl
        · exact ih List.mem_cons_self hm
      · exact ih (List.mem_cons_of_mem _ h)

/-- The names that are read from a text, in order. -/
def namesOf (cs : List Char) : List String :=
  ((splitSlashes cs).filter fun name => name ≠ [] ∧ name ≠ ['.']).map String.ofList

theorem ofChars_eq (cs : List Char) : ofChars cs = ⟨anchorOf cs, namesOf cs⟩ := rfl

theorem isPlain_ofString (s : String) : (ofString s).IsPlain := by
  intro name hm
  obtain ⟨segment, hs, rfl⟩ := List.mem_map.mp hm
  obtain ⟨hm, hkept⟩ := List.mem_filter.mp hs
  obtain ⟨hempty, hdot⟩ : segment ≠ [] ∧ segment ≠ ['.'] := by simpa using hkept
  constructor
  · intro he
    exact hempty (by simpa using congrArg String.toList he)
  · intro he
    exact hdot (by simpa using congrArg String.toList he)
  · rw [String.toList_ofList]
    exact slash_notMem_of_mem_splitSlashes hm

theorem namesOf_slash (cs : List Char) : namesOf ('/' :: cs) = namesOf cs := by
  simp [namesOf, splitSlashes]

theorem namesOf_intercalate (h : ∀ name ∈ names, IsPlainName name) :
    namesOf (['/'].intercalate (names.map String.toList)) = names := by
  by_cases hne : names = []
  · subst hne
    rfl
  · have hsplit : splitSlashes (['/'].intercalate (names.map String.toList)) =
        names.map String.toList := by
      rw [splitSlashes_eq_splitOn]
      apply List.splitOn_intercalate
      · intro segment hm
        obtain ⟨name, hn, rfl⟩ := List.mem_map.mp hm
        exact (h name hn).slashFree
      · simpa using hne
    have hkept : ∀ segment ∈ names.map String.toList, segment ≠ [] ∧ segment ≠ ['.'] := by
      intro segment hm
      obtain ⟨name, hn, rfl⟩ := List.mem_map.mp hm
      constructor
      · intro he
        exact (h name hn).ne_empty (String.toList_inj.mp he)
      · intro he
        exact (h name hn).ne_dot (String.toList_inj.mp he)
    rw [namesOf, hsplit, List.filter_eq_self.mpr (by simpa using hkept)]
    simp [Function.comp_def]

/-- What does not start with a slash has only the slashes of its anchor before it. -/
theorem anchorOf_append (anchor : PathAnchor) (h : cs.head? ≠ some '/') :
    anchorOf ((anchorText anchor).toList ++ cs) = anchor := by
  cases anchor <;> cases cs with
  | nil => rfl
  | cons c rest =>
    have hc : c ≠ '/' := by simpa using h
    simp [anchorText, anchorOf, hc]

theorem head?_intercalate_ne (h : ∀ name ∈ names, IsPlainName name) :
    (['/'].intercalate (names.map String.toList)).head? ≠ some '/' := by
  cases names with
  | nil => simp
  | cons name rest =>
    have hname := h name List.mem_cons_self
    have hne : name.toList ≠ [] := by
      intro he
      exact hname.ne_empty (String.toList_inj.mp he)
    obtain ⟨c, cs, hc⟩ := List.exists_cons_of_ne_nil hne
    have hslash : c ≠ '/' := by
      rintro rfl
      exact hname.slashFree (hc ▸ List.mem_cons_self)
    cases rest with
    | nil => simpa [hc] using hslash
    | cons second more => simpa [List.intercalate_cons_cons, hc] using hslash

/-- A plain path is read back from its text. -/
theorem IsPlain.ofString_text (h : p.IsPlain) : ofString p.text = p := by
  obtain ⟨anchor, parts⟩ := p
  unfold text
  split
  · rename_i hdot
    obtain ⟨hparts, rfl⟩ := hdot
    obtain rfl := List.isEmpty_iff.mp hparts
    rfl
  · have htext : (anchorText anchor ++ "/".intercalate parts).toList =
        (anchorText anchor).toList ++ ['/'].intercalate (parts.map String.toList) := by
      rw [String.toList_append, String.toList_intercalate]
      rfl
    have hnames : namesOf (anchorText anchor ++ "/".intercalate parts).toList = parts := by
      rw [htext]
      cases anchor with
      | relative => exact namesOf_intercalate h
      | root => exact (namesOf_slash _).trans (namesOf_intercalate h)
      | doubleRoot =>
        exact (namesOf_slash _).trans ((namesOf_slash _).trans (namesOf_intercalate h))
    rw [ofString, ofChars_eq, hnames, htext, anchorOf_append anchor (head?_intercalate_ne h)]

theorem isPlain_ofLocation (h : ∀ name ∈ place, IsPlainName name) : (ofLocation place).IsPlain := h

theorem IsPlain.join (h : p.IsPlain) (h' : q.IsPlain) : (p.join q).IsPlain := by
  unfold Path.join
  split
  · exact h'
  · intro name hm
    rcases List.mem_append.mp hm with hm | hm
    · exact h name hm
    · exact h' name hm

theorem IsPlain.expandHome? (h : p.IsPlain) (hh : ∀ name ∈ home, IsPlainName name)
    (hq : p.expandHome? home = some q) : q.IsPlain := by
  unfold Path.expandHome? at hq
  split at hq
  · rename_i first rest hanchor hparts
    split at hq
    · cases hq
      intro name hm
      rcases List.mem_append.mp hm with hm | hm
      · exact hh name hm
      · exact h name (hparts ▸ List.mem_cons_of_mem _ hm)
    · split at hq
      · cases hq
      · cases hq
        exact h
  · cases hq
    exact h

theorem IsPlain.relativeTo? (h : p.IsPlain) {base : Path} (hq : p.relativeTo? base = some q) :
    q.IsPlain := by
  unfold Path.relativeTo? at hq
  split at hq
  · cases hq
    intro name hm
    exact h name (List.mem_of_mem_drop hm)
  · cases hq

theorem isPlainName_append_declarationSuffix (h : IsPlainName name) :
    IsPlainName (stemOf name ++ declarationSuffix) where
  ne_empty := by simp [declarationSuffix]
  ne_dot := by
    intro he
    have hlast := congrArg (fun s => s.toList.getLast?) he
    simp [declarationSuffix] at hlast
  slashFree := by
    intro hm
    rw [String.toList_append] at hm
    rcases List.mem_append.mp hm with hm | hm
    · apply h.slashFree
      rw [← stemOf_append_suffixOf name, String.toList_append]
      exact List.mem_append_left _ hm
    · revert hm
      decide

theorem IsPlain.declarationPath? (h : p.IsPlain) (hq : SymbolExport.declarationPath? p = some q) :
    q.IsPlain := by
  unfold SymbolExport.declarationPath? Path.withName? at hq
  split at hq
  · cases hq
  · rename_i hne
    cases hq
    have hname : p.name ∈ p.parts := by
      rw [Path.name, List.getLast?_eq_getLast_of_ne_nil (by simpa using hne)]
      exact List.getLast_mem _
    intro name hm
    rcases List.mem_append.mp hm with hm | hm
    · exact h name (List.dropLast_subset _ hm)
    · rw [List.mem_singleton.mp hm]
      exact isPlainName_append_declarationSuffix (h _ hname)

end Path

theorem isPlainName_of_mem_normalize (h : ∀ name ∈ place, IsPlainName name)
    (h' : ∀ name ∈ names, IsPlainName name) :
    ∀ name ∈ normalize place names, IsPlainName name := by
  induction names generalizing place with
  | nil => exact h
  | cons first rest ih =>
    have hrest := fun n hm => h' n (List.mem_cons_of_mem first hm)
    unfold normalize
    split
    · exact ih (fun n hm => h n (List.dropLast_subset _ hm)) hrest
    · refine ih ?_ hrest
      intro n hm
      rcases List.mem_append.mp hm with hm | hm
      · exact h n hm
      · exact h' n (by rw [List.mem_singleton.mp hm]; exact List.mem_cons_self)

end SymbolExport
