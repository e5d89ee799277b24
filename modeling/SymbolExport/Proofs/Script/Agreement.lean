import SymbolExport.Proofs.CaseMembers
import SymbolExport.Proofs.Script.Declarations
import SymbolExport.Proofs.Script.Module

/-!
The module of enumerations and its declarations agree: they list the same names, and the declared
type of a member tells what its literal looks like.
-/
namespace SymbolExport

open SymbolExport.Number SymbolExport.Reading

namespace Reading

/-- What a text stands for that is one literal. -/
def readLiteral (cs : List Char) : Option Datum :=
  match readValue cs.length cs with
  | some (d, []) => some d
  | _ => none

theorem readLiteral_text (l : Literal) (depth : Nat) :
    readLiteral (l.text depth) = some l.datum := by
  have hread := (reads_text l (Nat.le_refl (l.text depth).length)).read_append [] (by simp [IsEnd])
  rw [List.append_nil] at hread
  rw [readLiteral, hread]

def IsBareInteger (cs : List Char) : Prop :=
  ∃ i, readLiteral cs = some (.int i)

def IsQuotedText (cs : List Char) : Prop :=
  ∃ s, readLiteral cs = some (.str s)

end Reading

/-- The declared type tells whether a number or a text stands in the module. -/
structure TypeFits (l : Literal) (type : String) : Prop where
  number : type = "number" ↔ IsBareInteger (l.text 1)
  string : type = "string" ↔ IsQuotedText (l.text 1)

/-- An integer or a text that can be written. -/
def Value.isWritable (v : Value) : Bool :=
  v.isBacked && (v.int?.all fun i => !exceedsDigits i)

theorem Value.typeFits_of_isWritable (v : Value) (type : String)
    (h : v.isWritable ∧ type = declaredType v) : ∃ l, v.literal? = .ok l ∧ TypeFits l type := by
  obtain ⟨hv, rfl⟩ := h
  rw [isWritable, Bool.and_eq_true] at hv
  obtain ⟨hv, hdigits⟩ := hv
  cases v with
  | int i =>
    refine ⟨.int i, literal?_int (by simpa [Value.int?] using hdigits), ?_, ?_⟩
    · simp [declaredType, Value.int?, IsBareInteger, readLiteral_text, Literal.datum]
    · simp [declaredType, Value.int?, IsQuotedText, readLiteral_text, Literal.datum]
  | str s =>
    refine ⟨.str s, by simp [Value.literal?], ?_, ?_⟩
    · simp [declaredType, Value.int?, IsBareInteger, readLiteral_text, Literal.datum]
    · simp [declaredType, Value.int?, IsQuotedText, readLiteral_text, Literal.datum]
  | _ => cases hv

/-- Texts and integers of bounded length can be written, and then the declared types fit. -/
theorem renderModule_of_isWritable {exports : ExportTable}
    (h : ∀ entry ∈ exports, ∀ member ∈ entry.2, member.2.isWritable) :
    ∃ statements, renderModule exports = .ok (moduleText statements) ∧
      Aligned (Aligned TypeFits) statements exports.types := by
  have hmembers : ∀ (members : MemberTable) (types : List (String × String)),
      (∀ member ∈ members, member.2.isWritable) ∧ types = members.types →
      ∃ entries, members.literal? = .ok (.object entries) ∧ Aligned TypeFits entries types := by
    rintro members types ⟨hm, rfl⟩
    exact exists_literal? Value.typeFits_of_isWritable (aligned_map hm)
  exact exists_renderModule hmembers (aligned_map h)

/-- The members that an enumeration is exported with, by what is left out. -/
def Class.exportedCases (c : Class) (ignore : List String) (suffix : String) : MemberTable :=
  Policy.normalize ⟨ignore, suffix, ExportMode.enums.synthesizeDefaults⟩
    (ExportMode.enums.members c)

/-- Names that a script and its declarations can define, and members that stand on one line. -/
structure IsReadable (entry : String × MemberTable) : Prop where
  name : ∀ c ∈ entry.1.toList, isNameChar c
  members : ∀ member ∈ entry.2, '\n' ∉ member.1.toList

/-- The statements of a module and the declarations that go with it. -/
structure Agreement (isReadonly : Bool) (exports : ExportTable)
    (statements : List (String × List (String × Literal))) : Prop where
  module : renderModule exports = .ok (moduleText statements)
  declarations : renderDeclarations isReadonly exports = declarationsText isReadonly exports.types
  types : Aligned (Aligned TypeFits) statements exports.types
  names : statements.map (fun (name, entries) => (name, entries.map Prod.fst)) =
    exports.map fun (name, members) => (name, Table.names members)
  readModule : (∀ entry ∈ exports, IsReadable entry) → readModule (moduleText statements) =
    some (statements.map fun (name, entries) => (name, Literal.entryData entries))
  readDeclarations : (∀ entry ∈ exports, IsReadable entry) →
    readDeclarations isReadonly (declarationsText isReadonly exports.types) = some exports.types

theorem declaredType_notMem (v : Value) :
    ' ' ∉ (declaredType v).toList ∧ '\n' ∉ (declaredType v).toList := by
  unfold declaredType
  split <;> decide

theorem IsReadable.isBlock {entry : String × MemberTable} (h : IsReadable entry) :
    IsBlock (entry.1, entry.2.types) where
  name := by
    intro hc
    have hfalse : isNameChar '\n' = false := by decide +kernel
    rw [h.name _ hc] at hfalse
    cases hfalse
  members := by
    intro m hm
    obtain ⟨member, hmember, rfl⟩ := List.mem_map.mp hm
    exact h.members member hmember
  types := by
    intro m hm
    obtain ⟨member, -, rfl⟩ := List.mem_map.mp hm
    exact declaredType_notMem member.2

theorem agreement_of_isWritable {exports : ExportTable}
    (h : ∀ entry ∈ exports, ∀ member ∈ entry.2, member.2.isWritable) (isReadonly : Bool) :
    ∃ statements, Agreement isReadonly exports statements := by
  obtain ⟨statements, hmodule, htypes⟩ := renderModule_of_isWritable h
  have hnames : statements.map (fun (name, entries) => (name, entries.map Prod.fst)) =
      exports.map fun (name, members) => (name, Table.names members) := by
    rw [htypes.map_eq fun _ _ => Aligned.names, ExportTable.types]
    simp [MemberTable.types, Table.names]
  refine ⟨statements, hmodule, renderDeclarations_eq_declarationsText isReadonly exports, htypes,
    hnames, fun hreadable => readModule_moduleText ?_, fun hreadable =>
    readDeclarations_declarationsText ?_ isReadonly⟩
  · intro statement hs
    have hname : statement.1 ∈ exports.types.map Prod.fst := htypes.names ▸ List.mem_map_of_mem hs
    simp only [ExportTable.types, List.map_map, List.mem_map] at hname
    obtain ⟨entry, hentry, hname⟩ := hname
    exact hname ▸ (hreadable entry hentry).name
  · intro block hblock
    obtain ⟨entry, hentry, rfl⟩ := List.mem_map.mp hblock
    exact (hreadable entry hentry).isBlock

/-- An enumeration with two names for one member, a demand for the next value, and a member that is
neither an integer nor a text. -/
def statusDefinition : ClassDefinition :=
  ⟨"Status", ["Enum"], [("ACTIVE", .given (.int 1)), ("LIVE", .given (.int 1)), ("NEXT", .next),
    ("UserUnset", .given (.bool false)), ("CREATED_AT", .given (.str "then")),
    ("NOTE", .given (.str "</"))]⟩

def statusClass : Class :=
  ⟨⟨10, "Status", []⟩, [.enum, .object], some [("ACTIVE", .int 1), ("LIVE", .int 1),
    ("NEXT", .int 2), ("UserUnset", .bool false), ("CREATED_AT", .str "then"), ("NOTE", .str "</")]⟩

/-- An enumeration with one member. -/
def bigClass (i : Int) : Class :=
  ⟨⟨10, "Big", []⟩, [.intEnum, .int, .dataEnum, .enum, .object], some [("A", .int i)]⟩

theorem define?_bigClass (i : Int) :
    ClassDefinition.define? ⟨"Big", ["IntEnum"], [("A", .given (.int i))]⟩ [] =
      some [bigClass i] := by
  cbv

end SymbolExport
