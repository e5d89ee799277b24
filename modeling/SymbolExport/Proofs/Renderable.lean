import SymbolExport.Proofs.CaseMembers
import SymbolExport.Proofs.ConstantOrigin
import SymbolExport.Proofs.OwnModule
import SymbolExport.Proofs.Script.Module

/-!
What is collected can be rendered. A value that an export of constants takes is data through and
through, so it has a literal, and making it plain leaves no tuple and does not change the literal.
-/
namespace SymbolExport

open SymbolExport.Number

namespace Value

/-- A value with nothing but plain data in it, at any depth. -/
inductive IsData : Value → Prop
  | null : IsData null
  | bool (b : Bool) : IsData (bool b)
  | int (i : Int) : IsData (int i)
  | float (x : Number.Binary64) : IsData (float x)
  | str (s : String) : IsData (str s)
  | derivedInt (i : Int) : IsData (derivedInt i)
  | derivedStr (s : String) : IsData (derivedStr s)
  | list {items : List Value} (inside : ∀ item ∈ items, item.IsData) : IsData (list items)
  | tuple {items : List Value} (inside : ∀ item ∈ items, item.IsData) : IsData (tuple items)
  | dict {entries : List (Value × Value)} (keys : ∀ entry ∈ entries, ∃ s, entry.1.str? = some s)
      (inside : ∀ entry ∈ entries, entry.2.IsData) : IsData (dict entries)

/-- The first value is the second one or a part of it, at any depth. -/
inductive IsWithin (u : Value) : Value → Prop
  | self : IsWithin u u
  | listItem {items : List Value} {item : Value} :
      item ∈ items → IsWithin u item → IsWithin u (list items)
  | tupleItem {items : List Value} {item : Value} :
      item ∈ items → IsWithin u item → IsWithin u (tuple items)
  | key {entries : List (Value × Value)} {entry : Value × Value} :
      entry ∈ entries → IsWithin u entry.1 → IsWithin u (dict entries)
  | value {entries : List (Value × Value)} {entry : Value × Value} :
      entry ∈ entries → IsWithin u entry.2 → IsWithin u (dict entries)
  | data {enumeration name : String} {form : MemberForm} {value : Value} :
      IsWithin u value → IsWithin u (member enumeration name form value)

mutual

theorem isData_of_isExportable (v : Value) (h : v.isExportable) : v.IsData := by
  cases v with
  | null => exact .null
  | bool b => exact .bool b
  | int i => exact .int i
  | float x => exact .float x
  | str s => exact .str s
  | derivedInt i => exact .derivedInt i
  | derivedStr s => exact .derivedStr s
  | list items => exact .list (isData_of_allExportable items h)
  | tuple items => exact .tuple (isData_of_allExportable items h)
  | dict entries =>
    have hentries := isData_of_allEntriesExportable entries h
    exact .dict (fun entry hm => (hentries entry hm).1) fun entry hm => (hentries entry hm).2
  | member | object => cases h

theorem isData_of_allExportable (items : List Value) (h : allExportable items) :
    ∀ item ∈ items, item.IsData := by
  cases items with
  | nil => exact List.forall_mem_nil _
  | cons item rest =>
    rw [allExportable, Bool.and_eq_true] at h
    exact List.forall_mem_cons.mpr
      ⟨isData_of_isExportable item h.1, isData_of_allExportable rest h.2⟩

theorem isData_of_allEntriesExportable (entries : List (Value × Value))
    (h : allEntriesExportable entries) :
    ∀ entry ∈ entries, (∃ s, entry.1.str? = some s) ∧ entry.2.IsData := by
  cases entries with
  | nil => exact List.forall_mem_nil _
  | cons entry rest =>
    rw [allEntriesExportable, Bool.and_eq_true, Bool.and_eq_true, Option.isSome_iff_exists] at h
    exact List.forall_mem_cons.mpr ⟨⟨h.1.1, isData_of_isExportable entry.2 h.1.2⟩,
      isData_of_allEntriesExportable rest h.2⟩

end

theorem plainAll_eq_map (items : List Value) : plainAll items = items.map plain := by
  induction items with
  | nil => rfl
  | cons item rest ih => simp [plainAll, ih]

theorem plainEntries_eq_map (entries : List (Value × Value)) :
    plainEntries entries = entries.map fun entry => (entry.1, entry.2.plain) := by
  induction entries with
  | nil => rfl
  | cons entry rest ih => simp [plainEntries, ih]

/-- A text is one itself, or that of a derived class, or the data of a member. -/
theorem cases_of_str? {key : Value} {s : String} (h : key.str? = some s) :
    key = str s ∨ key = derivedStr s ∨
      ∃ enumeration name showsData, key = member enumeration name ⟨.str, showsData⟩ (str s) := by
  unfold str? at h
  split at h
  · exact Or.inl (congrArg str (Option.some.inj h))
  · exact Or.inr (Or.inl (congrArg derivedStr (Option.some.inj h)))
  · obtain rfl := Option.some.inj h
    exact Or.inr (Or.inr ⟨_, _, _, rfl⟩)
  · cases h

theorem tuple_not_within_of_str? {key : Value} {s : String} (h : key.str? = some s)
    (items : List Value) : ¬ (tuple items).IsWithin key := by
  intro hw
  obtain rfl | rfl | ⟨enumeration, name, showsData, rfl⟩ := cases_of_str? h
  · cases hw
  · cases hw
  · cases hw with
    | data hw => cases hw

variable {v : Value}

theorem tuple_not_within_list {values : List Value} {items : List Value}
    (h : ∀ item ∈ values, ¬ (tuple items).IsWithin item.plain) :
    ¬ (tuple items).IsWithin (list (plainAll values)) := by
  intro hw
  cases hw with
  | listItem hm hw =>
    rw [plainAll_eq_map] at hm
    obtain ⟨item, hitem, rfl⟩ := List.mem_map.mp hm
    exact h item hitem hw

/-- Making data plain leaves no tuple at any depth. -/
theorem IsData.tuple_not_within_plain (h : v.IsData) (items : List Value) :
    ¬ (Value.tuple items).IsWithin v.plain := by
  induction h with
  | list _ ih | tuple _ ih => exact tuple_not_within_list ih
  | dict keys inside ih =>
    intro hw
    simp only [plain, plainEntries_eq_map] at hw
    cases hw with
    | key hm hw =>
      obtain ⟨entry, hentry, rfl⟩ := List.mem_map.mp hm
      obtain ⟨s, hs⟩ := keys entry hentry
      exact tuple_not_within_of_str? hs items hw
    | value hm hw =>
      obtain ⟨entry, hentry, rfl⟩ := List.mem_map.mp hm
      exact ih entry hentry hw
  | _ =>
    intro hw
    cases hw

theorem isData_plain (h : v.IsData) : v.plain.IsData := by
  induction h with
  | list _ ih | tuple _ ih =>
    refine .list fun item hm => ?_
    rw [plainAll_eq_map] at hm
    obtain ⟨item, hitem, rfl⟩ := List.mem_map.mp hm
    exact ih item hitem
  | dict keys _ ih =>
    refine .dict (fun entry hm => ?_) fun entry hm => ?_ <;>
      rw [plainEntries_eq_map] at hm <;> obtain ⟨entry, hentry, rfl⟩ := List.mem_map.mp hm
    · exact keys entry hentry
    · exact ih entry hentry
  | null => exact .null
  | bool b => exact .bool b
  | int i => exact .int i
  | float x => exact .float x
  | str s => exact .str s
  | derivedInt i => exact .derivedInt i
  | derivedStr s => exact .derivedStr s

theorem key?_of_str? {key : Value} {s : String} (h : key.str? = some s) : key.key? = .ok s := by
  unfold key?
  rw [h]

theorem literals?_plainAll {items : List Value}
    (h : ∀ item ∈ items, item.plain.literal? = item.literal?) :
    literals? (plainAll items) = literals? items := by
  induction items with
  | nil => rfl
  | cons item rest ih =>
    obtain ⟨hitem, hrest⟩ := List.forall_mem_cons.mp h
    simp only [plainAll, literals?, hitem, ih hrest]

theorem literalEntries?_plainEntries {entries : List (Value × Value)}
    (h : ∀ entry ∈ entries, entry.2.plain.literal? = entry.2.literal?) :
    literalEntries? (plainEntries entries) = literalEntries? entries := by
  induction entries with
  | nil => rfl
  | cons entry rest ih =>
    obtain ⟨hentry, hrest⟩ := List.forall_mem_cons.mp h
    simp only [plainEntries, literalEntries?, hentry, ih hrest]

/-- Plain data has the literal that the data has, or none for the same reason. -/
theorem IsData.literal?_plain (h : v.IsData) : v.plain.literal? = v.literal? := by
  induction h with
  | list _ ih | tuple _ ih => simp only [plain, literal?, literals?_plainAll ih]
  | dict _ _ ih => simp only [plain, literal?, literalEntries?_plainEntries ih]
  | _ => rfl

/-- No integer in the value, at any depth, has more digits than a numeral may have. -/
def IsShort (v : Value) : Prop :=
  ∀ u : Value, u.IsWithin v → ∀ i, u.int? = some i → ¬ exceedsDigits i

end Value

/-- Something is written; only the number of digits can keep it from that, and it does not if the
integers are short. -/
structure IsWritten {α : Type} (result : Except LiteralError α) (isShort : Prop) : Prop where
  digits : ∀ e, result = .error e → e = .tooManyDigits
  short : isShort → ∃ a, result = .ok a

namespace IsWritten

variable {α β : Type} {result : Except LiteralError α} {isShort allShort : Prop}

theorem pure (a : α) : IsWritten (pure a) isShort :=
  ⟨fun _ h => (by cases h), fun _ => ⟨a, rfl⟩⟩

theorem bind {f : α → Except LiteralError β} (h : IsWritten result isShort)
    (hf : ∀ a, IsWritten (f a) allShort) (hs : allShort → isShort) :
    IsWritten (result >>= f) allShort where
  digits := by
    intro e he
    cases result with
    | error fault =>
      cases he
      exact h.digits _ rfl
    | ok a => exact (hf a).digits e he
  short := by
    intro hall
    obtain ⟨a, rfl⟩ := h.short (hs hall)
    exact (hf a).short hall

theorem mapM {f : α → Except LiteralError β} {p : α → Prop} {xs : List α}
    (h : ∀ x ∈ xs, IsWritten (f x) (p x)) : IsWritten (xs.mapM f) (∀ x ∈ xs, p x) := by
  induction xs with
  | nil => exact pure []
  | cons x rest ih =>
    obtain ⟨hx, hrest⟩ := List.forall_mem_cons.mp h
    rw [List.mapM_cons]
    refine hx.bind (fun y => ?_) fun hall => hall x List.mem_cons_self
    exact (ih hrest).bind (fun ys => pure (y :: ys)) fun hall => (List.forall_mem_cons.mp hall).2

end IsWritten

namespace Value

variable {v : Value}

theorem isWritten_numeral {i : Int} (h : v.int? = some i) :
    IsWritten (numeral? i) v.IsShort where
  digits := by
    intro e he
    unfold numeral? at he
    split at he <;> cases he
    rfl
  short := fun hv => ⟨intText i, if_neg (hv v .self i h)⟩

theorem isWritten_literals {items : List Value}
    (h : ∀ item ∈ items, IsWritten item.literal? item.IsShort) :
    IsWritten (literals? items) (∀ item ∈ items, item.IsShort) := by
  have hmap : literals? items = items.mapM literal? := by
    clear h
    induction items with
    | nil => rfl
    | cons item rest ih => rw [literals?, List.mapM_cons, ih]
  exact hmap ▸ .mapM h

theorem isWritten_literalEntries {entries : List (Value × Value)}
    (keys : ∀ entry ∈ entries, ∃ s, entry.1.str? = some s)
    (h : ∀ entry ∈ entries, IsWritten entry.2.literal? entry.2.IsShort) :
    IsWritten (literalEntries? entries) (∀ entry ∈ entries, entry.2.IsShort) := by
  induction entries with
  | nil => exact .pure []
  | cons entry rest ih =>
    obtain ⟨⟨s, hs⟩, hkeys⟩ := List.forall_mem_cons.mp keys
    obtain ⟨hentry, hrest⟩ := List.forall_mem_cons.mp h
    simp only [literalEntries?, key?_of_str? hs]
    refine hentry.bind (fun l => ?_) fun hall => hall entry List.mem_cons_self
    exact (ih hkeys hrest).bind (fun ls => .pure ((s, l) :: ls)) fun hall =>
      (List.forall_mem_cons.mp hall).2

/-- Data is written, as far as it is short. -/
theorem IsData.isWritten (h : v.IsData) : IsWritten v.literal? v.IsShort := by
  induction h with
  | int i | derivedInt i =>
    exact (isWritten_numeral rfl).bind (fun _ => .pure (Literal.int i)) id
  | list _ ih | tuple _ ih =>
    refine (isWritten_literals ih).bind (fun ls => .pure (Literal.array ls)) fun hv item hm => ?_
    exact fun u hu => hv u (by first | exact .listItem hm hu | exact .tupleItem hm hu)
  | dict keys _ ih =>
    refine (isWritten_literalEntries keys ih).bind (fun ls => .pure (Literal.object ls)) ?_
    exact fun hv entry hm u hu => hv u (.value hm hu)
  | _ => exact .pure _

theorem isData_backing (v : Value) : v.backing.IsData := by
  unfold backing
  split
  · exact .int _
  · exact .str _
  · exact .null

end Value

/-! The members of a type have literals, and so has what becomes of them. -/

variable {p : Policy} {members : List Member} {c : Class} {m : Member}

/-- The value of the member is an exportable one that was made plain. -/
def Member.IsConstant (m : Member) : Prop :=
  ∃ v : Value, v.isExportable ∧ m.value = v.plain

theorem Class.isConstant_of_mem_constants (hm : m ∈ c.constants) : m.IsConstant :=
  forall_mem_constants (fun _ v _ hv => ⟨v, hv, rfl⟩) m hm

theorem ExportMode.isData_members (mode : ExportMode) (c : Class) :
    ∀ m ∈ mode.members c, m.value.IsData := by
  intro m hm
  cases mode with
  | enums =>
    obtain ⟨⟨name, value⟩, -, rfl⟩ := List.mem_map.mp hm
    exact value.isData_backing
  | constants =>
    obtain ⟨v, hv, hplain⟩ := Class.isConstant_of_mem_constants hm
    exact hplain ▸ Value.isData_plain (Value.isData_of_isExportable v hv)

theorem Policy.isData_valueFor (h : m.value.IsData) : (p.valueFor m).IsData := by
  unfold valueFor
  split
  · exact .str _
  · exact h

theorem Policy.isData_normalize (h : ∀ m ∈ members, m.value.IsData) :
    ∀ entry ∈ p.normalize members, entry.2.IsData := by
  intro entry hentry
  obtain ⟨m, hm, rfl⟩ := List.mem_map.mp (Table.mem_ofEntries hentry)
  exact isData_valueFor (h m (List.mem_filter.mp hm).1)

/-! So everything that a run collects can be rendered. -/

/-- Each member of each entry is data. -/
def ExportTable.IsData (exports : ExportTable) : Prop :=
  ∀ entry ∈ exports, ∀ member ∈ entry.2, member.2.IsData

/-- No integer in an entry has too many digits. -/
def ExportTable.IsShort (exports : ExportTable) : Prop :=
  ∀ entry ∈ exports, ∀ member ∈ entry.2, member.2.IsShort

theorem MemberTable.isWritten {members : MemberTable}
    (h : ∀ member ∈ members, member.2.IsData) :
    IsWritten members.literal? (∀ member ∈ members, member.2.IsShort) := by
  have hmembers : ∀ member ∈ members, IsWritten
      (do return (member.1, ← member.2.literal?) : Except LiteralError (String × Literal))
      member.2.IsShort :=
    fun member hm => (h member hm).isWritten.bind (fun l => .pure (member.1, l)) id
  exact (IsWritten.mapM hmembers).bind (fun entries => .pure (Literal.object entries)) id

theorem ExportTable.IsData.isWritten {exports : ExportTable} (h : exports.IsData) :
    IsWritten (renderModule exports) exports.IsShort := by
  have hstatements : ∀ entry ∈ exports, IsWritten
      (do return statementText entry.1 (← MemberTable.literal? entry.2) :
        Except LiteralError (List Char))
      (∀ member ∈ entry.2, member.2.IsShort) :=
    fun entry hm => (MemberTable.isWritten (h entry hm)).bind
      (fun l => .pure (statementText entry.1 l)) id
  exact (IsWritten.mapM hstatements).bind (fun statements => .pure statements.flatten) id

variable {w : World} {mode : ExportMode} {importRoot : Path} {unit : SourceUnit}
  {units : List SourceUnit} {e : Extraction} {report r : ExportReport}

theorem World.isData_members_of_extract (h : (w.extract mode p importRoot unit).1 = .ok e) :
    ∀ member ∈ e.outcome.members, member.2.IsData := by
  unfold extract at h
  split at h
  · cases h
  · cases h
    exact List.forall_mem_nil _
  · rename_i t _ _
    split at h
    · cases h
    · rename_i symbol? _ _
      cases h
      cases ho : mode.outcome p t symbol? with
      | exported t' outputName members =>
        obtain ⟨-, c, -, -, rfl⟩ := mode.exists_class_of_outcome ho
        exact Policy.isData_normalize (mode.isData_members c)
      | _ => exact List.forall_mem_nil _

theorem ExportReport.isData_add (h : r.entries.IsData)
    (he : ∀ member ∈ e.outcome.members, member.2.IsData) :
    (r.add e).entries.IsData := by
  unfold add
  split
  · rename_i t outputName members ho
    intro entry hm
    rcases Table.mem_insert hm with rfl | hm
    · simpa [ho, Outcome.members] using he
    · exact h entry hm
  · exact h

theorem World.isData_extractAll (hr : r.entries.IsData)
    (h : (w.extractAll mode p importRoot r units).1 = .ok report) :
    report.entries.IsData := by
  induction units generalizing w r with
  | nil =>
    cases h
    exact hr
  | cons unit rest ih =>
    unfold extractAll at h
    split at h
    · cases h
    · rename_i e after hextract
      have hmembers := isData_members_of_extract (Prod.ext_iff.mp hextract).1
      exact ih (ExportReport.isData_add hr hmembers) h

theorem Exporter.isData_collect {x : Exporter} {o : ExportOptions}
    (h : (x.collect o w).1 = .ok report) : report.entries.IsData := by
  obtain ⟨units, root, -, -, hall⟩ := exists_extractAll_of_collect h
  have hempty : ExportTable.IsData [] := List.forall_mem_nil _
  exact World.isData_extractAll hempty hall

/-- What is collected can be rendered, up to the number of digits that a numeral may have. Every
member of every type has a literal after values are made up for those that have none; and a value
that an export of constants takes has no tuple in it once it is plain, and the literal of the plain
value is its own. -/
theorem Exporter.renderable_collected :
    (∀ (x : Exporter) (o : ExportOptions) (w : World) (report : ExportReport),
      (x.collect o w).1 = .ok report →
        IsWritten (renderModule report.entries) report.entries.IsShort) ∧
    (∀ (mode : ExportMode) (policy : Policy) (c : Class),
      ∀ entry ∈ policy.normalize (mode.members c),
        IsWritten entry.2.literal? entry.2.IsShort) ∧
    ∀ v : Value, v.isExportable → (∀ items, ¬ (Value.tuple items).IsWithin v.plain) ∧
      v.plain.literal? = v.literal? ∧ IsWritten v.literal? v.IsShort := by
  refine ⟨fun x o w report h => ?_, fun mode policy c entry hentry => ?_, fun v hv => ?_⟩
  · exact (isData_collect h).isWritten
  · exact (Policy.isData_normalize (mode.isData_members c) entry hentry).isWritten
  · have hdata := v.isData_of_isExportable hv
    exact ⟨hdata.tuple_not_within_plain, hdata.literal?_plain, hdata.isWritten⟩

/-- Tuples at several depths, under a key that is a member of an enumeration. -/
def sizes : Value :=
  .dict [(.member "Kind" "SMALL" ⟨.str, false⟩ (.str "small"),
    .tuple [.int 1, .list [.tuple [.derivedStr "x"]]])]

theorem Exporter.renderable_collected_sizes : sizes.isExportable ∧
    (∀ items, ¬ (Value.tuple items).IsWithin sizes.plain) ∧
    sizes.plain.literal? = sizes.literal? ∧ IsWritten sizes.literal? sizes.IsShort := by
  have hsizes : sizes.isExportable := by decide
  exact ⟨hsizes, Exporter.renderable_collected.2.2 sizes hsizes⟩

end SymbolExport
