/-! Tables: entries in the order of their first insertion, at most one for each name. -/
namespace SymbolExport

/-- Entries by name. -/
abbrev Table (α : Type) := List (String × α)

namespace Table

variable {α : Type}

def names (t : Table α) : List String :=
  t.map Prod.fst

def get? (t : Table α) (name : String) : Option α :=
  (List.find? (fun entry => entry.1 = name) t).map Prod.snd

def has (t : Table α) (name : String) : Bool :=
  List.any t fun entry => entry.1 = name

/-- A new name goes to the end; a known one keeps its place and takes the new value. -/
def insert (name : String) (value : α) : Table α → Table α
  | [] => [(name, value)]
  | entry :: rest =>
    if entry.1 = name then (name, value) :: rest else entry :: insert name value rest

def erase (t : Table α) (name : String) : Table α :=
  List.filter (fun entry => entry.1 ≠ name) t

def ofEntries (entries : List (String × α)) : Table α :=
  entries.foldl (fun t entry => t.insert entry.1 entry.2) []

theorem names_insert (name : String) (value : α) (t : Table α) :
    (t.insert name value).names = if name ∈ t.names then t.names else t.names ++ [name] := by
  induction t with
  | nil => simp [insert, names]
  | cons entry rest ih =>
    by_cases h : entry.1 = name
    · simp [insert, names, h]
    · have hne : name ≠ entry.1 := fun he => h he.symm
      simp only [names] at ih
      by_cases hm : name ∈ List.map Prod.fst rest <;> simp [insert, names, h, hne, hm, ih]

theorem nodup_names_insert {t : Table α} (h : t.names.Nodup) (name : String) (value : α) :
    (t.insert name value).names.Nodup := by
  rw [names_insert]
  split
  · exact h
  · rename_i hm
    exact List.nodup_append.mpr ⟨h, by simp, by rintro a ha b hb rfl; simp_all⟩

theorem mem_of_get? {t : Table α} {name : String} {value : α} (h : t.get? name = some value) :
    (name, value) ∈ t := by
  obtain ⟨entry, he, hv⟩ := Option.map_eq_some_iff.mp h
  have hn : entry.1 = name := by simpa using List.find?_some he
  have hm := List.mem_of_find?_eq_some he
  subst hn hv
  exact hm

theorem has_eq_isSome (t : Table α) (name : String) : t.has name = (t.get? name).isSome := by
  rw [has, get?, Option.isSome_map, List.isSome_find?]

theorem has_iff_mem_names {t : Table α} {name : String} : t.has name ↔ name ∈ t.names := by
  simp [has, names]

@[simp] theorem get?_insert_self (name : String) (value : α) (t : Table α) :
    (t.insert name value).get? name = some value := by
  induction t with
  | nil => simp [insert, get?]
  | cons entry rest ih =>
    by_cases h : entry.1 = name
    · simp [insert, get?, h]
    · simpa [insert, get?, h] using ih

theorem get?_insert_of_ne {name other : String} (h : other ≠ name) (value : α) (t : Table α) :
    (t.insert name value).get? other = t.get? other := by
  induction t with
  | nil => simp [insert, get?, h.symm]
  | cons entry rest ih =>
    by_cases hn : entry.1 = name
    · simp [insert, get?, hn, h.symm]
    · by_cases ho : entry.1 = other
      · subst ho
        simp [insert, get?, h]
      · simpa [insert, get?, hn, ho] using ih

theorem has_insert {name other : String} {value : α} {t : Table α} :
    (t.insert name value).has other ↔ other = name ∨ t.has other := by
  by_cases h : other = name
  · subst h
    simp [has_eq_isSome]
  · simp [has_eq_isSome, get?_insert_of_ne h, h]

theorem mem_insert {entry : String × α} {name : String} {value : α} {t : Table α}
    (h : entry ∈ t.insert name value) : entry = (name, value) ∨ entry ∈ t := by
  induction t with
  | nil => simpa [insert] using h
  | cons first rest ih =>
    by_cases hn : first.1 = name
    · simp only [insert, hn, if_true, List.mem_cons] at h
      exact h.imp_right (List.mem_cons_of_mem first)
    · simp only [insert, hn, if_false, List.mem_cons] at h
      rcases h with rfl | h
      · exact Or.inr List.mem_cons_self
      · exact (ih h).imp_right (List.mem_cons_of_mem first)

/-- Where a new value counts like the old one, or for nothing, all values count for the same. -/
theorem flatMap_insert {β : Type} {f : α → List β} {t : Table α} {name : String} {value : α}
    (h : f value = ((t.get? name).map f).getD []) :
    ((t.insert name value).flatMap fun entry => f entry.2) = t.flatMap fun entry => f entry.2 := by
  induction t with
  | nil => simpa [insert, get?] using h
  | cons entry rest ih =>
    by_cases hn : entry.1 = name
    · simp_all [insert, get?]
    · simp [insert, hn, ih (by simpa [get?, hn] using h)]

/-- A value that is put in its own place changes nothing. -/
theorem insert_of_get? {t : Table α} {name : String} {value : α} (h : t.get? name = some value) :
    t.insert name value = t := by
  induction t with
  | nil => simp [get?] at h
  | cons entry rest ih =>
    by_cases hn : entry.1 = name
    · simp only [get?, hn, List.find?_cons, decide_true, Option.map_some, Option.some.injEq] at h
      subst hn h
      simp [insert]
    · simp only [insert, hn, if_false, List.cons.injEq, true_and]
      exact ih (by simpa [get?, hn] using h)

theorem get?_erase (t : Table α) (name other : String) :
    (t.erase name).get? other = if other = name then none else t.get? other := by
  induction t with
  | nil => simp [erase, get?]
  | cons entry rest ih =>
    by_cases hn : entry.1 = name
    · by_cases ho : other = name
      · simp [erase, get?, hn, ho]
      · simpa [erase, get?, hn, ho, Ne.symm ho] using ih
    · by_cases ho : entry.1 = other
      · subst ho
        simp [erase, get?, hn]
      · simpa [erase, get?, hn, ho] using ih

theorem has_erase {t : Table α} {name other : String} :
    (t.erase name).has other ↔ other ≠ name ∧ t.has other := by
  rw [has_eq_isSome, has_eq_isSome, get?_erase]
  split <;> simp_all

theorem names_erase (t : Table α) (name : String) :
    (t.erase name).names = t.names.filter (· ≠ name) := by
  rw [names, names, erase, List.filter_map]
  rfl

/-- Entries in front come first. -/
theorem get?_append (t u : Table α) (name : String) :
    get? (t ++ u) name = (t.get? name).or (u.get? name) := by
  simp only [get?, List.find?_append]
  cases List.find? (fun entry : String × α => entry.1 = name) t <;> simp

theorem mem_foldl_insert {entry : String × α} {entries : List (String × α)} {t : Table α}
    (h : entry ∈ entries.foldl (fun t e => t.insert e.1 e.2) t) : entry ∈ t ∨ entry ∈ entries := by
  induction entries generalizing t with
  | nil => exact Or.inl h
  | cons first rest ih =>
    rcases ih h with h | h
    · rcases mem_insert h with rfl | h
      · exact Or.inr List.mem_cons_self
      · exact Or.inl h
    · exact Or.inr (List.mem_cons_of_mem first h)

theorem mem_ofEntries {entry : String × α} {entries : List (String × α)}
    (h : entry ∈ ofEntries entries) : entry ∈ entries :=
  (mem_foldl_insert h).resolve_left (by simp)

theorem names_foldl_insert (entries : List (String × α)) (t : Table α) :
    (entries.foldl (fun t e => t.insert e.1 e.2) t).names =
      (names entries).foldl (fun ns n => if n ∈ ns then ns else ns ++ [n]) t.names := by
  induction entries generalizing t with
  | nil => rfl
  | cons first rest ih => rw [List.foldl_cons, ih, names_insert]; rfl

/-- The names of a table depend on the names of the entries alone. -/
theorem names_ofEntries_congr {β : Type} {entries : List (String × α)} {others : List (String × β)}
    (h : names entries = names others) : (ofEntries entries).names = (ofEntries others).names := by
  rw [ofEntries, ofEntries, names_foldl_insert, names_foldl_insert, h]
  rfl

theorem filter_names_foldl_insert {keep : String → Bool} (entries : List (String × α))
    {t kept : Table α} (h : kept.names = t.names.filter keep) :
    ((entries.filter fun e => keep e.1).foldl (fun t e => t.insert e.1 e.2) kept).names =
      (entries.foldl (fun t e => t.insert e.1 e.2) t).names.filter keep := by
  induction entries generalizing t kept with
  | nil => exact h
  | cons first rest ih =>
    by_cases hk : keep first.1
    · rw [List.filter_cons_of_pos (p := fun e : String × α => keep e.1) hk]
      refine ih ?_
      rw [names_insert, names_insert, h]
      by_cases hm : first.1 ∈ t.names <;> simp [hm, hk]
    · rw [List.filter_cons_of_neg (p := fun e : String × α => keep e.1) hk]
      refine ih ?_
      rw [names_insert, h]
      split <;> simp [hk]

/-- Leaving out names first is leaving them out in the end. -/
theorem names_ofEntries_filter (keep : String → Bool) (entries : List (String × α)) :
    (ofEntries (entries.filter fun e => keep e.1)).names =
      (ofEntries entries).names.filter keep :=
  filter_names_foldl_insert entries (by simp [names])

end Table

end SymbolExport
