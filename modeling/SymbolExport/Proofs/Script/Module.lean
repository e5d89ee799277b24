import SymbolExport.Proofs.Script.Characters

/-!
A script module decodes to what was exported: the same names with the same members in the same
order.
-/
namespace SymbolExport

open SymbolExport.Number SymbolExport.Reading

mutual

/-- What a value stands for, if it is built from null, truth values, integers that are not too long,
texts, floating point numbers, lists, and dictionaries with texts as their keys. -/
def Value.datum? : Value → Option Datum
  | .null => some .null
  | .bool b => some (.bool b)
  | .int i => if exceedsDigits i then none else some (.int i)
  | .float x => some (.float (x.textWith scriptWords))
  | .str s => some (.str s)
  | .list items => (Value.data? items).map .array
  | .dict entries => (Value.entryData? entries).map .object
  | _ => none

def Value.data? : List Value → Option (List Datum)
  | [] => some []
  | item :: rest => do return (← Value.datum? item) :: (← Value.data? rest)

def Value.entryData? : List (Value × Value) → Option (List (String × Datum))
  | [] => some []
  | (.str key, value) :: rest => do
    return (key, ← Value.datum? value) :: (← Value.entryData? rest)
  | _ :: _ => none

end

def MemberTable.data? (members : MemberTable) : Option (List (String × Datum)) :=
  members.mapM fun (name, value) => value.datum?.map (name, ·)

def ExportTable.data? (entries : ExportTable) : Option (List (String × List (String × Datum))) :=
  entries.mapM fun (outputName, members) => (MemberTable.data? members).map (outputName, ·)

theorem Value.literal?_int {i : Int} (h : ¬ exceedsDigits i) :
    (Value.int i).literal? = .ok (.int i) := by
  simp [literal?, numeral?, h, Except.map]

mutual

/-- Such a value can be written, as a literal that stands for the same. -/
theorem Value.literal?_of_datum? : ∀ (v : Value) {d : Datum}, v.datum? = some d →
    ∃ l, v.literal? = .ok l ∧ l.datum = d
  | .null, d, h => ⟨.null, rfl, Option.some.inj h⟩
  | .bool b, d, h => ⟨.bool b, rfl, Option.some.inj h⟩
  | .int i, d, h => by
    rw [Value.datum?, Option.ite_none_left_eq_some] at h
    exact ⟨.int i, literal?_int h.1, Option.some.inj h.2⟩
  | .float x, d, h => ⟨.float x, by simp [Value.literal?], Option.some.inj h⟩
  | .str s, d, h => ⟨.str s, by simp [Value.literal?], Option.some.inj h⟩
  | .list items, d, h => by
    obtain ⟨data, hdata, rfl⟩ := Option.map_eq_some_iff.mp h
    obtain ⟨literals, hl, rfl⟩ := Value.literals?_of_data? items hdata
    refine ⟨.array literals, ?_, rfl⟩
    simp only [Value.literal?, hl]
    rfl
  | .dict entries, d, h => by
    obtain ⟨data, hdata, rfl⟩ := Option.map_eq_some_iff.mp h
    obtain ⟨literals, hl, rfl⟩ := Value.literalEntries?_of_entryData? entries hdata
    refine ⟨.object literals, ?_, rfl⟩
    simp only [Value.literal?, hl]
    rfl
  | .derivedInt _, d, h | .derivedStr _, d, h | .tuple _, d, h | .member .., d, h
  | .object _, d, h => by simp [Value.datum?] at h

theorem Value.literals?_of_data? : ∀ (items : List Value) {data : List Datum},
    Value.data? items = some data → ∃ ls, Value.literals? items = .ok ls ∧ Literal.data ls = data
  | [], data, h => ⟨[], rfl, Option.some.inj h⟩
  | item :: rest, data, h => by
    simp only [Value.data?, Option.bind_eq_bind, Option.bind_eq_some_iff] at h
    obtain ⟨d, hd, more, hmore, hdata⟩ := h
    obtain ⟨l, hl, rfl⟩ := Value.literal?_of_datum? item hd
    obtain ⟨ls, hls, rfl⟩ := Value.literals?_of_data? rest hmore
    refine ⟨l :: ls, ?_, Option.some.inj hdata⟩
    simp only [Value.literals?, hl, hls]
    rfl

theorem Value.literalEntries?_of_entryData? : ∀ (entries : List (Value × Value))
    {data : List (String × Datum)}, Value.entryData? entries = some data →
    ∃ ls, Value.literalEntries? entries = .ok ls ∧ Literal.entryData ls = data
  | [], data, h => ⟨[], rfl, Option.some.inj h⟩
  | (key, value) :: rest, data, h => by
    obtain ⟨s, rfl⟩ : ∃ s, key = .str s := by
      cases key <;> first | exact ⟨_, rfl⟩ | simp [Value.entryData?] at h
    simp only [Value.entryData?, Option.bind_eq_bind, Option.bind_eq_some_iff] at h
    obtain ⟨d, hd, more, hmore, hdata⟩ := h
    obtain ⟨l, hl, rfl⟩ := Value.literal?_of_datum? value hd
    obtain ⟨ls, hls, rfl⟩ := Value.literalEntries?_of_entryData? rest hmore
    refine ⟨(s, l) :: ls, ?_, Option.some.inj hdata⟩
    simp only [Value.literalEntries?, Value.key?, Value.str?, hl, hls]
    rfl

end

/-- Entries with the same names in the same order, and with related values. -/
def Aligned {β γ : Type} (R : β → γ → Prop) : List (String × β) → List (String × γ) → Prop :=
  List.Forall₂ fun b c => b.1 = c.1 ∧ R b.2 c.2

section Aligned

variable {β γ δ ε : Type} {bs : List (String × β)} {cs : List (String × γ)}

theorem Aligned.names {R : β → γ → Prop} (h : Aligned R bs cs) :
    bs.map Prod.fst = cs.map Prod.fst := by
  rw [← List.forall₂_eq_eq_eq, List.forall₂_map_left_iff, List.forall₂_map_right_iff]
  exact List.Forall₂.imp (fun _ _ hbc => hbc.1) h

theorem Aligned.map_eq {f : β → δ} {g : γ → δ} {R : β → γ → Prop} (h : Aligned R bs cs)
    (hr : ∀ b c, R b c → f b = g c) :
    bs.map (fun (name, b) => (name, f b)) = cs.map fun (name, c) => (name, g c) := by
  rw [← List.forall₂_eq_eq_eq, List.forall₂_map_left_iff, List.forall₂_map_right_iff]
  exact List.Forall₂.imp (fun b c hbc => Prod.ext hbc.1 (hr b.2 c.2 hbc.2)) h

theorem Aligned.map_eq_self {f : β → γ} (h : Aligned (fun b c => f b = c) bs cs) :
    bs.map (fun (name, b) => (name, f b)) = cs :=
  (h.map_eq (g := id) fun _ _ hbc => hbc).trans (List.map_id' cs)

theorem aligned_map {f : β → γ} {P : β → Prop} (h : ∀ b ∈ bs, P b.2) :
    Aligned (fun b c => P b ∧ c = f b) bs (bs.map fun (name, b) => (name, f b)) :=
  List.forall₂_map_right_iff.mpr (List.forall₂_same.mpr fun b hb => ⟨rfl, h b hb, rfl⟩)

theorem aligned_of_mapM {g : β → Option γ}
    (h : bs.mapM (fun (name, b) => (g b).map (name, ·)) = some cs) :
    Aligned (fun b c => g b = some c) bs cs := by
  induction bs generalizing cs with
  | nil =>
    obtain rfl := Option.some.inj h
    exact .nil
  | cons b rest ih =>
    rw [List.mapM_cons] at h
    simp only [Option.bind_eq_bind, Option.bind_eq_some_iff, Option.map_eq_some_iff,
      Option.pure_def, Option.some.injEq] at h
    obtain ⟨-, ⟨c, hc, rfl⟩, more, hmore, rfl⟩ := h
    exact .cons ⟨rfl, hc⟩ (ih hmore)

/-- Entries can be mapped if each of their values can, and what relates the results to other values
relates all of them. -/
theorem Aligned.exists_mapM {α : Type} {S : β → γ → Prop} {R : α → γ → Prop}
    {f : String → β → Except ε δ} (t : String → α → δ)
    (h : ∀ name b c, S b c → ∃ a, f name b = .ok (t name a) ∧ R a c) (hs : Aligned S bs cs) :
    ∃ as : List (String × α), bs.mapM (fun b => f b.1 b.2) = .ok (as.map fun a => t a.1 a.2) ∧
      Aligned R as cs := by
  induction hs with
  | nil => exact ⟨[], rfl, .nil⟩
  | @cons b c _ _ hbc _ ih =>
    obtain ⟨a, ha, hr⟩ := h b.1 b.2 c.2 hbc.2
    obtain ⟨as, has, hrest⟩ := ih
    exact ⟨(b.1, a) :: as, by simp [List.mapM_cons, ha, has, bind, Except.bind, pure, Except.pure],
      .cons ⟨hbc.1, hr⟩ hrest⟩

end Aligned

/-- Statements, each of a name and the entries of its literal. -/
def moduleText (statements : List (String × List (String × Literal))) : List Char :=
  statements.flatMap fun (name, entries) => statementText name (.object entries)

theorem exists_literal? {γ : Type} {S : Value → γ → Prop} {R : Literal → γ → Prop}
    (h : ∀ v c, S v c → ∃ l, v.literal? = .ok l ∧ R l c) {members : MemberTable}
    {cs : List (String × γ)} (hs : Aligned S members cs) :
    ∃ entries, members.literal? = .ok (.object entries) ∧ Aligned R entries cs := by
  have hmember : ∀ (name : String) v c, S v c → ∃ l,
      (do return (name, ← v.literal?) : Except LiteralError _) = .ok (Prod.mk name l) ∧
        R l c := by
    intro name v c hv
    obtain ⟨l, hl, hr⟩ := h v c hv
    refine ⟨l, ?_, hr⟩
    rw [hl]
    rfl
  obtain ⟨entries, hentries, hr⟩ := hs.exists_mapM Prod.mk hmember
  refine ⟨entries, ?_, hr⟩
  simp only [MemberTable.literal?, hentries, List.map_id']
  rfl

theorem exists_renderModule {γ : Type} {S : MemberTable → γ → Prop}
    {R : List (String × Literal) → γ → Prop}
    (h : ∀ members c, S members c → ∃ entries,
      MemberTable.literal? members = .ok (.object entries) ∧ R entries c)
    {exports : ExportTable} {cs : List (String × γ)} (hs : Aligned S exports cs) :
    ∃ statements, renderModule exports = .ok (moduleText statements) ∧ Aligned R statements cs := by
  have hexport : ∀ name members c, S members c → ∃ entries,
      (do return statementText name (← MemberTable.literal? members) : Except LiteralError _) =
        .ok (statementText name (.object entries)) ∧ R entries c := by
    intro name members c hm
    obtain ⟨entries, hentries, hr⟩ := h members c hm
    refine ⟨entries, ?_, hr⟩
    rw [hentries]
    rfl
  obtain ⟨statements, hstatements, hr⟩ :=
    hs.exists_mapM (fun name entries => statementText name (.object entries)) hexport
  refine ⟨statements, ?_, hr⟩
  simp only [renderModule, hstatements]
  rfl

theorem renderModule_of_data? {exports : ExportTable}
    {data : List (String × List (String × Datum))} (h : exports.data? = some data) :
    ∃ statements, renderModule exports = .ok (moduleText statements) ∧
      statements.map (fun (name, entries) => (name, Literal.entryData entries)) = data := by
  have hmembers : ∀ (members : MemberTable) (data : List (String × Datum)),
      members.data? = some data → ∃ entries, members.literal? = .ok (.object entries) ∧
        Literal.entryData entries = data := by
    intro members data hdata
    obtain ⟨entries, hentries, hr⟩ :=
      exists_literal? (fun v _ hd => Value.literal?_of_datum? v hd) (aligned_of_mapM hdata)
    exact ⟨entries, hentries, (Literal.entryData_eq_map entries).trans hr.map_eq_self⟩
  obtain ⟨statements, hstatements, hr⟩ := exists_renderModule hmembers (aligned_of_mapM h)
  exact ⟨statements, hstatements, hr.map_eq_self⟩

namespace Reading

theorem readStatement_statementText {name : String} (hn : ∀ c ∈ name.toList, isNameChar c)
    (entries : List (String × Literal)) (rest : List Char) :
    readStatement (statementText name (.object entries) ++ rest) =
      some ((name, Literal.entryData entries), rest) := by
  have hvalue : ∀ more, readValue ((Literal.object entries).text 0 ++ ';' :: more).length
      ((Literal.object entries).text 0 ++ ';' :: more) =
        some (.object (Literal.entryData entries), ';' :: more) := by
    intro more
    have hlength : ((Literal.object entries).text 0).length ≤
        ((Literal.object entries).text 0 ++ ';' :: more).length := by simp
    exact (reads_text (.object entries) hlength).read_append (';' :: more) (isEnd_cons rfl more)
  have hlast : ";\n\n".toList.isPrefixOf? (';' :: ("\n\n".toList ++ rest)) = some rest :=
    isPrefixOf?_append ";\n\n".toList rest
  have htext : statementText name (.object entries) ++ rest =
      "export const ".toList ++ (name.toList ++ (" = ".toList ++
        ((Literal.object entries).text 0 ++ ';' :: ("\n\n".toList ++ rest)))) := by
    unfold statementText
    simp only [List.append_assoc]
    rfl
  rw [htext]
  specialize hvalue ("\n\n".toList ++ rest)
  generalize (Literal.object entries).text 0 ++ ';' :: ("\n\n".toList ++ rest) = literal
    at hvalue ⊢
  have hstart := isPrefixOf?_append "export const ".toList
    (name.toList ++ (" = ".toList ++ literal))
  have hmiddle := isPrefixOf?_append " = ".toList literal
  have hend : ∀ c ∈ (" = ".toList ++ literal).head?, isNameChar c = false := by
    intro c hc
    obtain rfl : ' ' = c := by simpa using hc
    decide +kernel
  obtain ⟨htake, hdrop⟩ := span_append hn hend
  unfold readStatement
  rw [hstart]
  simp only [Option.bind_eq_bind, Option.bind_some]
  rw [hdrop, htake, hmiddle]
  simp only [Option.bind_some]
  rw [hvalue]
  simp only [hlast, Option.bind_some, String.ofList_toList]
  rfl

theorem readModule_moduleText {statements : List (String × List (String × Literal))}
    (hn : ∀ statement ∈ statements, ∀ c ∈ statement.1.toList, isNameChar c) :
    readModule (moduleText statements) =
      some (statements.map fun (name, entries) => (name, Literal.entryData entries)) := by
  induction statements with
  | nil => simp [readModule, moduleText]
  | cons statement rest ih =>
    have hread := readStatement_statementText (hn statement List.mem_cons_self) statement.2
      (moduleText rest)
    have hrest := ih fun s hs => hn s (List.mem_cons_of_mem statement hs)
    have htext : moduleText (statement :: rest) =
        statementText statement.1 (.object statement.2) ++ moduleText rest := rfl
    have hpos : 0 < (statementText statement.1 (.object statement.2)).length := by
      unfold statementText
      simp only [List.length_append]
      have hstart : "export const ".toList.length = 13 := rfl
      omega
    rw [readModule, htext, hread]
    have hless : (moduleText rest).length <
        (statementText statement.1 (.object statement.2) ++ moduleText rest).length := by
      rw [List.length_append]
      omega
    have hne : (statementText statement.1 (.object statement.2) ++
        moduleText rest).isEmpty = false := by
      rw [List.isEmpty_eq_false_iff, ← List.length_pos_iff]
      omega
    simp only [hne, hless, hrest, if_true]
    rfl

end Reading

/-- The module of exported types can be written, and it decodes to them; its literals can stand in a
script element. -/
theorem readModule_renderModule {entries : ExportTable}
    {data : List (String × List (String × Datum))} (hdata : entries.data? = some data)
    (hnames : ∀ entry ∈ entries, ∀ c ∈ entry.1.toList, isNameChar c) :
    ∃ statements, renderModule entries = .ok (moduleText statements) ∧
      readModule (moduleText statements) = some data ∧
      ∀ statement ∈ statements, IsSafeText ((Literal.object statement.2).text 0) := by
  obtain ⟨statements, hrender, rfl⟩ := renderModule_of_data? hdata
  have hstatements : ∀ statement ∈ statements, ∀ c ∈ statement.1.toList, isNameChar c := by
    intro statement hs
    have hnamed := (aligned_of_mapM hdata).names
    rw [List.map_map] at hnamed
    have hname : statement.1 ∈ entries.map Prod.fst := hnamed.symm ▸ List.mem_map_of_mem hs
    obtain ⟨entry, hentry, hname⟩ := List.mem_map.mp hname
    exact hname ▸ hnames entry hentry
  exact ⟨statements, hrender, readModule_moduleText hstatements, fun statement _ =>
    (isPlainText_text (.object statement.2) 0).isSafeText⟩

/-- A type whose members hold what ends a script element, beyond ASCII and in a list. -/
def taggedTable : ExportTable :=
  [("Tags", [("a/b", .list [.str "</script>", .int (-3), .float .nan, .list []]),
    ("é", .dict [(.str "\\\"", .bool true), (.str "😀", .null)])])]

def taggedData : List (String × List (String × Datum)) :=
  [("Tags", [("a/b", .array [.str "</script>", .int (-3), .float "NaN".toList, .array []]),
    ("é", .object [("\\\"", .bool true), ("😀", .null)])])]

theorem readModule_renderModule_taggedTable :
    taggedTable.data? = some taggedData ∧ ∃ statements,
      renderModule taggedTable = .ok (moduleText statements) ∧
        readModule (moduleText statements) = some taggedData ∧
        ∀ statement ∈ statements, IsSafeText ((Literal.object statement.2).text 0) := by
  have hsmall : exceedsDigits (-3) = false := by decide +kernel
  have hdata : taggedTable.data? = some taggedData := by
    simp [taggedTable, taggedData, ExportTable.data?, MemberTable.data?, Value.datum?, Value.data?,
      Value.entryData?, hsmall]
    rfl
  have hnames : ∀ entry ∈ taggedTable, ∀ c ∈ entry.1.toList, isNameChar c := by
    intro entry hentry
    rw [List.mem_singleton.mp hentry]
    exact List.all_eq_true.mp (by decide +kernel)
  exact ⟨hdata, readModule_renderModule hdata hnames⟩

/-- The least number with more digits than a numeral may have. -/
def overlong : Int :=
  (Nat.pow 10 maxDigits : Nat)

theorem exceedsDigits_overlong : exceedsDigits overlong := by
  unfold exceedsDigits
  exact decide_eq_true (Int.natAbs_natCast _).ge

theorem literal?_overlong : (Value.int overlong).literal? = .error .tooManyDigits := by
  simp [Value.literal?, numeral?, exceedsDigits_overlong, Except.map]

/-- An integer with too many digits is not written, so there is nothing to read back. -/
theorem renderModule_overlong :
    (∀ c ∈ "Big".toList, isNameChar c) ∧
      renderModule [("Big", [("A", .int overlong)])] = .error .tooManyDigits := by
  refine ⟨List.all_eq_true.mp (by decide +kernel), ?_⟩
  simp [renderModule, MemberTable.literal?, literal?_overlong, bind, Except.bind]

end SymbolExport
