import SymbolExport.Class.Constant
import SymbolExport.Class.Definition
import Mathlib

/-!
Where the constants of a class come from. Each is taken from the first class, in the order of
lookup, whose own value of the name is exportable. A value that is not exportable does not keep that
of a later class out, although the class shows the former.
-/
namespace SymbolExport

namespace Value

mutual

theorem isExportable_plain (v : Value) : v.plain.isExportable = v.isExportable := by
  cases v with
  | list items | tuple items => simp only [plain, isExportable, allExportable_plainAll items]
  | dict entries => simp only [plain, isExportable, allEntriesExportable_plainEntries entries]
  | _ => rfl

theorem allExportable_plainAll (items : List Value) :
    allExportable (plainAll items) = allExportable items := by
  cases items with
  | nil => rfl
  | cons item rest =>
    simp only [plainAll, allExportable, isExportable_plain item, allExportable_plainAll rest]

theorem allEntriesExportable_plainEntries (entries : List (Value × Value)) :
    allEntriesExportable (plainEntries entries) = allEntriesExportable entries := by
  cases entries with
  | nil => rfl
  | cons entry rest =>
    simp only [plainEntries, allEntriesExportable, isExportable_plain entry.2,
      allEntriesExportable_plainEntries rest]

end

end Value

/-- What a class itself has, by name; the root of all classes has nothing. -/
def ClassLevel.own (level : ClassLevel) : Table Value :=
  if level.serial = ClassLevel.object.serial then [] else level.attributes

namespace Class

/-- No class of the lineage has two attributes of one name. -/
def IsTabled (c : Class) : Prop :=
  ∀ level ∈ c.lineage, level.attributes.names.Nodup

/-- What the first class with that name binds it to. A case is bound to a member of the class, of
which no value is known. -/
def bound? (c : Class) (name : String) : Option (Option Value) :=
  match c.level.own.get? name with
  | some v => some (some v)
  | none =>
    if name ∈ Table.names (c.cases?.getD []) then some none
    else (c.ancestors.findSome? fun level => level.own.get? name).map some

/-- The class shows the value of a member under its name. -/
def Shows (c : Class) (m : Member) : Prop :=
  ∃ v, c.bound? m.name = some (some v) ∧ m.value = v.plain

/-- What is exported of a member comes from one class, and those before it have no exportable value
of that name. -/
structure ComesFrom (c : Class) (m : Member) (front : List ClassLevel) (level : ClassLevel)
    (v : Value) : Prop where
  lineage : ∃ back, c.lineage = front ++ level :: back
  value : level.own.get? m.name = some v
  isExportable : v.isExportable
  plain : m.value = v.plain
  front : ∀ earlier ∈ front, ∀ w, earlier.own.get? m.name = some w → ¬ w.isExportable

end Class

variable {found : List Member} {m : Member} {c : Class} {name : String} {v : Value}

/-- The value of a name, if it is exportable. -/
def exportable? (table : Table Value) (name : String) : Option Value :=
  (table.get? name).filter Value.isExportable

/-- The first exportable value of a name. -/
def firstExportable? (tables : List (Table Value)) (name : String) : Option Value :=
  tables.findSome? fun table => exportable? table name

theorem exportable?_cons_self (name : String) (value : Value) (rest : Table Value) :
    exportable? ((name, value) :: rest) name = if value.isExportable then some value else none := by
  simp [exportable?, Table.get?, Option.filter]

theorem exportable?_cons_of_ne {other : String} (h : other ≠ name) (value : Value)
    (rest : Table Value) :
    exportable? ((other, value) :: rest) name = exportable? rest name := by
  simp [exportable?, Table.get?, h]

theorem exportable?_of_notMem {table : Table Value} (h : name ∉ table.names) :
    exportable? table name = none := by
  have hnone : table.get? name = none := by
    rw [← Option.not_isSome_iff_eq_none, ← Table.has_eq_isSome, Table.has_iff_mem_names]
    exact h
  simp [exportable?, hnone]

theorem addConstants_cons (found : List Member) (name : String) (value : Value)
    (rest : List (String × Value)) :
    addConstants found ((name, value) :: rest) = addConstants
      (if (∀ k ∈ found, k.name ≠ name) ∧ isConstantName name ∧ value.isExportable
        then found ++ [⟨name, value.plain⟩] else found) rest := by
  simp only [addConstants, List.foldl_cons]
  congr 1
  by_cases hf : ∀ k ∈ found, k.name ≠ name <;> by_cases hn : isConstantName name <;>
    by_cases hv : value.isExportable <;> simp_all

/-- What holds of every exportable value under a name in capitals holds of all that is added. -/
theorem forall_mem_addConstants {P : Member → Prop}
    (hP : ∀ name (v : Value), isConstantName name → v.isExportable → P ⟨name, v.plain⟩)
    {attributes : List (String × Value)} (h : ∀ m ∈ found, P m) :
    ∀ m ∈ addConstants found attributes, P m := by
  induction attributes generalizing found with
  | nil => exact h
  | cons entry rest ih =>
    obtain ⟨name, value⟩ := entry
    rw [addConstants_cons]
    refine ih ?_
    split
    · rename_i hnew
      exact List.forall_mem_append.mpr
        ⟨h, List.forall_mem_singleton.mpr (hP name value hnew.2.1 hnew.2.2)⟩
    · exact h

/-- What the attributes of one class add: for a new name in capitals, its exportable value. -/
theorem mem_addConstants {attributes : Table Value} (h : attributes.names.Nodup) :
    m ∈ addConstants found attributes ↔ m ∈ found ∨ (∀ k ∈ found, k.name ≠ m.name) ∧
      isConstantName m.name ∧ ∃ v, exportable? attributes m.name = some v ∧
        m.value = v.plain := by
  induction attributes generalizing found with
  | nil => simp [addConstants, exportable?, Table.get?]
  | cons entry rest ih =>
    obtain ⟨name, value⟩ := entry
    obtain ⟨hnew, hrest⟩ : name ∉ Table.names rest ∧ (Table.names rest).Nodup := by
      simpa [Table.names] using h
    rw [addConstants_cons, ih hrest]
    by_cases hm : name = m.name
    · -- the rest has no value of this name, so the entry alone decides
      subst hm
      rw [exportable?_of_notMem hnew, exportable?_cons_self]
      split
      · rename_i htaken
        have hself : m = ⟨m.name, value.plain⟩ ↔ m.value = value.plain := by
          constructor
          · exact fun he => congrArg Member.value he
          · exact fun he => congrArg (Member.mk m.name) he
        rw [and_iff_right htaken.1]
        simp [htaken.2, hself]
      · rename_i hleft
        have hnone : ¬ ((∀ k ∈ found, k.name ≠ m.name) ∧ isConstantName m.name ∧
            ∃ v, (if value.isExportable then some value else none) = some v ∧
              m.value = v.plain) := by
          rintro ⟨hfree, hconstant, v, hv, -⟩
          split at hv
          · rename_i hexportable
            exact hleft ⟨hfree, hconstant, hexportable⟩
          · cases hv
        rw [or_iff_left hnone]
        simp
    · rw [exportable?_cons_of_ne hm]
      have hne : m ≠ ⟨name, value.plain⟩ := fun he => hm (congrArg Member.name he).symm
      split <;> simp [hne, or_imp, forall_and, hm]

theorem free_addConstants {attributes : Table Value} (h : attributes.names.Nodup) :
    (∀ k ∈ addConstants found attributes, k.name ≠ name) ↔ (∀ k ∈ found, k.name ≠ name) ∧
      ¬ (isConstantName name ∧ (exportable? attributes name).isSome) := by
  simp only [mem_addConstants h]
  constructor
  · intro hk
    have hfree : ∀ k ∈ found, k.name ≠ name := fun k hm => hk k (Or.inl hm)
    refine ⟨hfree, ?_⟩
    rintro ⟨hconstant, hsome⟩
    obtain ⟨v, hv⟩ := Option.isSome_iff_exists.mp hsome
    exact hk ⟨name, v.plain⟩ (Or.inr ⟨hfree, hconstant, v, hv, rfl⟩) rfl
  · rintro ⟨hfree, hno⟩ k (hm | ⟨-, hconstant, v, hv, -⟩) rfl
    · exact hfree k hm rfl
    · exact hno ⟨hconstant, by simp [hv]⟩

/-- The tables are searched one after the other, and the first exportable value of a name counts. -/
theorem mem_foldl_addConstants {tables : List (Table Value)}
    (h : ∀ table ∈ tables, table.names.Nodup) :
    m ∈ tables.foldl addConstants found ↔ m ∈ found ∨ (∀ k ∈ found, k.name ≠ m.name) ∧
      isConstantName m.name ∧ ∃ v, firstExportable? tables m.name = some v ∧
        m.value = v.plain := by
  induction tables generalizing found with
  | nil => simp [firstExportable?]
  | cons table rest ih =>
    have hhead : table.names.Nodup := h table List.mem_cons_self
    rw [List.foldl_cons, ih fun t ht => h t (List.mem_cons_of_mem table ht),
      mem_addConstants hhead, free_addConstants hhead]
    cases he : exportable? table m.name with
    | none => simp [firstExportable?, he]
    | some v =>
      have hlast (last : Prop) : ¬ (((∀ k ∈ found, k.name ≠ m.name) ∧
          ¬ (isConstantName m.name ∧ (some v).isSome)) ∧ isConstantName m.name ∧ last) := by
        rintro ⟨⟨-, hno⟩, hconstant, -⟩
        exact hno ⟨hconstant, rfl⟩
      rw [or_iff_left (hlast _)]
      simp [firstExportable?, he]

theorem nodup_own {level : ClassLevel} (h : level.attributes.names.Nodup) :
    level.own.names.Nodup := by
  unfold ClassLevel.own
  split
  · simp [Table.names]
  · exact h

theorem constantsOf_eq (lineage : List ClassLevel) :
    constantsOf lineage = (lineage.map ClassLevel.own).foldl addConstants [] := by
  have hstep (found : List Member) (level : ClassLevel) :
      addConstants found level.own = if level.serial ≠ ClassLevel.object.serial
        then addConstants found level.attributes else found := by
    unfold ClassLevel.own
    by_cases hs : level.serial = ClassLevel.object.serial <;> simp [hs, addConstants]
  simp [constantsOf, List.foldl_filter, List.foldl_map, hstep]

theorem Class.forall_mem_constants {P : Member → Prop}
    (hP : ∀ name (v : Value), isConstantName name → v.isExportable → P ⟨name, v.plain⟩) :
    ∀ m ∈ c.constants, P m := by
  have hfold : ∀ (tables : List (Table Value)) (found : List Member), (∀ m ∈ found, P m) →
      ∀ m ∈ tables.foldl addConstants found, P m := by
    intro tables
    induction tables with
    | nil => exact fun found h => h
    | cons table rest ih => exact fun found h => ih _ (forall_mem_addConstants hP h)
  rw [constants, constantsOf_eq]
  exact hfold _ [] (List.forall_mem_nil _)

/-! Classes that definitions give have attributes with different names. -/

theorem nodup_ofEntries {α : Type} (entries : List (String × α)) :
    (Table.ofEntries entries).names.Nodup := by
  induction entries using List.reverseRecOn with
  | nil => simp [Table.ofEntries, Table.names]
  | append_singleton front entry ih =>
    rw [Table.ofEntries, List.foldl_append]
    exact Table.nodup_names_insert ih entry.1 entry.2

theorem mem_of_nextLevel? {sequences : List (List ClassLevel)} {level : ClassLevel}
    (h : nextLevel? sequences = some level) : ∃ sequence ∈ sequences, level ∈ sequence := by
  obtain ⟨sequence, hs, hh⟩ := List.mem_filterMap.mp (List.mem_of_find?_eq_some h)
  exact ⟨sequence, hs, List.mem_of_head? hh⟩

theorem mem_of_mem_dropHead {level l : ClassLevel} {sequence : List ClassLevel}
    (h : l ∈ dropHead level sequence) : l ∈ sequence := by
  unfold dropHead at h
  split at h
  · exact h
  · split at h
    · exact List.mem_cons_of_mem _ h
    · exact h

theorem mem_of_mergeLevels {fuel : Nat} {sequences : List (List ClassLevel)}
    {merged : List ClassLevel} (h : mergeLevels fuel sequences = some merged) :
    ∀ level ∈ merged, ∃ sequence ∈ sequences, level ∈ sequence := by
  induction fuel generalizing sequences merged with
  | zero =>
    unfold mergeLevels at h
    split at h <;> simp_all
  | succ fuel ih =>
    unfold mergeLevels at h
    split at h
    · simp_all
    · simp only [Option.bind_eq_bind, Option.bind_eq_some_iff, Option.pure_def,
        Option.some.injEq] at h
      obtain ⟨next, hnext, rest, hrest, rfl⟩ := h
      intro level hl
      rcases List.mem_cons.mp hl with rfl | hl
      · exact mem_of_nextLevel? hnext
      · obtain ⟨dropped, hd, hin⟩ := ih hrest level hl
        obtain ⟨sequence, hs, rfl⟩ := List.mem_map.mp hd
        exact ⟨sequence, hs, mem_of_mem_dropHead hin⟩

theorem mem_of_linearize? {bases : List Class} {ancestors : List ClassLevel}
    (h : linearize? bases = some ancestors) :
    ∀ level ∈ ancestors, ∃ b ∈ bases, level ∈ b.lineage := by
  intro level hl
  obtain ⟨sequence, hs, hin⟩ := mem_of_mergeLevels h level hl
  rcases List.mem_append.mp hs with hs | hs
  · obtain ⟨b, hb, rfl⟩ := List.mem_map.mp hs
    exact ⟨b, hb, hin⟩
  · obtain rfl := List.mem_singleton.mp hs
    obtain ⟨b, hb, rfl⟩ := List.mem_map.mp hin
    exact ⟨b, hb, List.mem_cons_self⟩

theorem exists_of_mem_mapM? {α β : Type} {f : α → Option β} {xs : List α} {ys : List β}
    (h : xs.mapM f = some ys) {y : β} (hy : y ∈ ys) : ∃ x ∈ xs, f x = some y := by
  induction xs generalizing ys with
  | nil =>
    simp only [List.mapM_nil, Option.pure_def, Option.some.injEq] at h
    simp [← h] at hy
  | cons x rest ih =>
    simp only [List.mapM_cons, Option.bind_eq_bind, Option.bind_eq_some_iff, Option.pure_def,
      Option.some.injEq] at h
    obtain ⟨first, hf, others, ho, rfl⟩ := h
    rcases List.mem_cons.mp hy with rfl | hy
    · exact ⟨x, List.mem_cons_self, hf⟩
    · obtain ⟨z, hz, he⟩ := ih ho hy
      exact ⟨z, List.mem_cons_of_mem x hz, he⟩

theorem isTabled_rootClasses : ∀ c ∈ rootClasses, c.IsTabled := by
  have hroot : ∀ c ∈ rootClasses, ∀ level ∈ c.lineage, level.attributes = [] := by
    simp [rootClasses, Class.lineage, ClassLevel.object, ClassLevel.int, ClassLevel.str,
      ClassLevel.float, ClassLevel.enum, ClassLevel.flag, ClassLevel.intEnum, ClassLevel.strEnum,
      ClassLevel.intFlag, ClassLevel.dataEnum]
  intro c hc level hl
  rw [hroot c hc level hl]
  exact List.nodup_nil

theorem isTabled_of_classNamed? {known : List Class} (hk : ∀ c ∈ known, c.IsTabled)
    (h : classNamed? known name = some c) : c.IsTabled := by
  unfold classNamed? at h
  cases hf : known.find? fun c => c.name = name with
  | some found =>
    obtain rfl : found = c := by simpa [hf] using h
    exact hk found (List.mem_of_find?_eq_some hf)
  | none =>
    have hroot : rootClasses.find? (fun c => c.name = name) = some c := by rwa [hf] at h
    exact isTabled_rootClasses c (List.mem_of_find?_eq_some hroot)

theorem ClassDefinition.isTabled_of_define? {d : ClassDefinition} {known next : List Class}
    (hk : ∀ c ∈ known, c.IsTabled) (h : d.define? known = some next) :
    ∀ c ∈ next, c.IsTabled := by
  simp only [define?, Option.bind_eq_bind, Option.bind_eq_some_iff, Option.pure_def,
    Option.some.injEq] at h
  obtain ⟨bases, hbases, ancestors, hancestors, rfl⟩ := h
  intro c hc
  rcases List.mem_cons.mp hc with rfl | hc
  · intro level hl
    rcases List.mem_cons.mp hl with rfl | hl
    · exact nodup_ofEntries _
    · obtain ⟨b, hb, hin⟩ := mem_of_linearize? hancestors level hl
      obtain ⟨name, -, hname⟩ := exists_of_mem_mapM? hbases hb
      exact isTabled_of_classNamed? hk hname level hin
  · exact hk c hc

theorem isTabled_of_foldlM {definitions : List ClassDefinition} {start known : List Class}
    (hs : ∀ c ∈ start, c.IsTabled)
    (h : definitions.foldlM (fun known d => d.define? known) start = some known) :
    ∀ c ∈ known, c.IsTabled := by
  induction definitions generalizing start with
  | nil =>
    obtain rfl : start = known := by simpa using h
    exact hs
  | cons d rest ih =>
    rw [List.foldlM_cons, Option.bind_eq_bind, Option.bind_eq_some_iff] at h
    obtain ⟨next, hd, hrest⟩ := h
    exact ih (d.isTabled_of_define? hs hd) hrest

theorem isTabled_of_defineAll? {definitions : List ClassDefinition} {known : List Class}
    (h : defineAll? definitions = some known) : ∀ c ∈ known, c.IsTabled :=
  isTabled_of_foldlM (by simp) h

namespace Class

/-- The constants of a class: each name in capitals with its first exportable value. -/
theorem mem_constants (h : c.IsTabled) : m ∈ c.constants ↔ isConstantName m.name ∧
    ∃ v, firstExportable? (c.lineage.map ClassLevel.own) m.name = some v ∧ m.value = v.plain := by
  have htables : ∀ table ∈ c.lineage.map ClassLevel.own, (Table.names table).Nodup := by
    intro table ht
    obtain ⟨level, hl, rfl⟩ := List.mem_map.mp ht
    exact nodup_own (h level hl)
  rw [constants, constantsOf_eq, mem_foldl_addConstants htables]
  simp

theorem exists_comesFrom (h : c.IsTabled) (hm : m ∈ c.constants) :
    ∃ front level v, c.ComesFrom m front level v := by
  obtain ⟨-, v, hfirst, hplain⟩ := (mem_constants h).mp hm
  rw [firstExportable?, List.findSome?_map, List.findSome?_eq_some_iff] at hfirst
  obtain ⟨front, level, back, hlineage, hv, hfront⟩ := hfirst
  obtain ⟨hvalue, hexportable⟩ := Option.filter_eq_some_iff.mp hv
  refine ⟨front, level, v, ⟨back, hlineage⟩, hvalue, hexportable, hplain, ?_⟩
  intro earlier hearlier w hw hexport
  have hnone := hfront earlier hearlier
  simp [exportable?, hw, hexport] at hnone

/-- If the value that a class shows is exportable, it is the one that is exported. -/
theorem firstExportable?_of_bound? (hb : c.bound? name = some (some v)) (hv : v.isExportable) :
    firstExportable? (c.lineage.map ClassLevel.own) name = some v := by
  unfold bound? at hb
  rw [firstExportable?, List.findSome?_map, lineage, List.findSome?_cons]
  split at hb
  · rename_i w hw
    obtain rfl : w = v := by simpa using hb
    simp [exportable?, hw, Option.filter, hv]
  · rename_i hnone
    split at hb
    · cases hb
    · obtain ⟨w, hw, he⟩ := Option.map_eq_some_iff.mp hb
      obtain rfl : w = v := by simpa using he
      obtain ⟨front, level, back, hancestors, hlevel, hfront⟩ :=
        List.findSome?_eq_some_iff.mp hw
      have hinner : c.ancestors.findSome? (fun level => exportable? level.own name) = some w := by
        refine List.findSome?_eq_some_iff.mpr ⟨front, level, back, hancestors, ?_, ?_⟩
        · simp [exportable?, hlevel, Option.filter, hv]
        · intro earlier hearlier
          simp [exportable?, hfront earlier hearlier]
      simpa [exportable?, hnone, Function.comp_def] using hinner

theorem shows_iff (h : c.IsTabled) (hm : m ∈ c.constants) :
    c.Shows m ↔ ∃ v, c.bound? m.name = some (some v) ∧ v.isExportable := by
  obtain ⟨-, u, hfirst, hplain⟩ := (mem_constants h).mp hm
  constructor
  · rintro ⟨v, hb, hv⟩
    refine ⟨v, hb, ?_⟩
    obtain ⟨front, level, w, hfrom⟩ := exists_comesFrom h hm
    rw [← v.isExportable_plain, ← hv, hfrom.plain, w.isExportable_plain]
    exact hfrom.isExportable
  · rintro ⟨v, hb, hv⟩
    rw [firstExportable?_of_bound? hb hv, Option.some.injEq] at hfirst
    exact ⟨v, hb, by rw [hplain, hfirst]⟩

/-- Every constant comes from the first class with an exportable value of its name, and it is what
the class shows exactly if the first class with that name at all has an exportable value of it. -/
theorem constants_comesFrom (h : c.IsTabled) : ∀ m ∈ c.constants,
    (∃ front level v, c.ComesFrom m front level v) ∧
      (c.Shows m ↔ ∃ v, c.bound? m.name = some (some v) ∧ v.isExportable) :=
  fun _ hm => ⟨exists_comesFrom h hm, shows_iff h hm⟩

end Class

/-- A limit that a derived class turns into a property, and sizes that it sets anew. -/
def limitDefinitions : List ClassDefinition :=
  [⟨"Base", [], [("LIMIT", .given (.int 1)), ("SIZES", .given (.list [.int 1]))]⟩,
   ⟨"Derived", ["Base"], [("LIMIT", .given (.object .property)),
     ("SIZES", .given (.tuple [.int 2]))]⟩]

def baseOfLimits : ClassLevel :=
  ⟨10, "Base", [("LIMIT", .int 1), ("SIZES", .list [.int 1])]⟩

def derivedLimits : Class :=
  ⟨⟨11, "Derived", [("LIMIT", .object .property), ("SIZES", .tuple [.int 2])]⟩,
    [baseOfLimits, .object], none⟩

theorem defineAll?_limitDefinitions :
    defineAll? limitDefinitions = some [derivedLimits, ⟨baseOfLimits, [.object], none⟩] := by
  rfl

theorem constants_derivedLimits :
    derivedLimits.constants = [⟨"SIZES", .list [.int 2]⟩, ⟨"LIMIT", .int 1⟩] := by
  rfl

theorem constants_comesFrom_derivedLimits : derivedLimits.IsTabled ∧
    (∃ front level v, derivedLimits.ComesFrom ⟨"SIZES", .list [.int 2]⟩ front level v) ∧
    (derivedLimits.Shows ⟨"SIZES", .list [.int 2]⟩ ↔
      ∃ v, derivedLimits.bound? "SIZES" = some (some v) ∧ v.isExportable) := by
  have htabled : derivedLimits.IsTabled :=
    isTabled_of_defineAll? defineAll?_limitDefinitions _ List.mem_cons_self
  have hmem : (⟨"SIZES", .list [.int 2]⟩ : Member) ∈ derivedLimits.constants := by
    simp [constants_derivedLimits]
  exact ⟨htabled, Class.constants_comesFrom htabled _ hmem⟩

/-- The inherited limit is exported, although the derived class shows a property in its place. -/
theorem not_shows_derivedLimits : defineAll? limitDefinitions =
      some [derivedLimits, ⟨baseOfLimits, [.object], none⟩] ∧
    (⟨"LIMIT", .int 1⟩ : Member) ∈ derivedLimits.constants ∧
      ¬ derivedLimits.Shows ⟨"LIMIT", .int 1⟩ := by
  refine ⟨defineAll?_limitDefinitions, by simp [constants_derivedLimits], ?_⟩
  rintro ⟨v, hb, hv⟩
  have hproperty : derivedLimits.bound? "LIMIT" = some (some (.object .property)) := rfl
  rw [hproperty] at hb
  cases hb
  cases hv

end SymbolExport
