import SymbolExport.Proofs.Script.Numeral
import SymbolExport.Proofs.Script.Quotation

/-!
A script module reads back as what was exported. A literal is read up to its end, whatever follows
it that does not go on with a word or a number; so the parts of a collection are read one by one.
-/
namespace SymbolExport

open SymbolExport.Number SymbolExport.Reading

mutual

def Literal.datum : Literal → Datum
  | .null => .null
  | .bool b => .bool b
  | .int i => .int i
  | .float x => .float (x.textWith scriptWords)
  | .str s => .str s
  | .array items => .array (Literal.data items)
  | .object entries => .object (Literal.entryData entries)

def Literal.data : List Literal → List Datum
  | [] => []
  | item :: rest => Literal.datum item :: Literal.data rest

def Literal.entryData : List (String × Literal) → List (String × Datum)
  | [] => []
  | (name, value) :: rest => (name, Literal.datum value) :: Literal.entryData rest

end

theorem Literal.data_eq_map (items : List Literal) : data items = items.map datum := by
  induction items with
  | nil => rfl
  | cons item rest ih => simp [data, ih]

theorem Literal.entryData_eq_map (entries : List (String × Literal)) :
    entryData entries = entries.map fun (name, value) => (name, value.datum) := by
  induction entries with
  | nil => rfl
  | cons entry rest ih => simp [entryData, ih]

/-- What holds of a collection if it holds of its parts holds of all literals. -/
theorem Literal.induction {motive : Literal → Prop}
    (null : motive .null) (bool : ∀ b, motive (.bool b)) (int : ∀ i, motive (.int i))
    (float : ∀ x, motive (.float x)) (str : ∀ s, motive (.str s))
    (array : ∀ items, (∀ l ∈ items, motive l) → motive (.array items))
    (object : ∀ entries, (∀ entry ∈ entries, motive entry.2) → motive (.object entries))
    (l : Literal) : motive l :=
  @Literal.rec motive (fun items => ∀ l ∈ items, motive l)
    (fun entries => ∀ entry ∈ entries, motive entry.2) (fun entry => motive entry.2)
    null bool int float str array object (by simp)
    (fun _ _ hl hrest => List.forall_mem_cons.mpr ⟨hl, hrest⟩) (by simp)
    (fun _ _ hl hrest => List.forall_mem_cons.mpr ⟨hl, hrest⟩) (fun _ _ hl => hl) l

namespace Reading

/-- Nothing that could belong to a word or a number comes next. -/
def IsEnd (rest : List Char) : Prop :=
  ∀ c ∈ rest.head?, isAtomChar c = false

/-- A text is read as something, whatever follows it, and it can be told from blanks and from the
end of a collection. -/
structure Reads {α : Type} (read : List Char → Option (α × List Char)) (text : List Char) (a : α) :
    Prop where
  start : ∃ c more, text = c :: more ∧ isBlank c = false ∧ c ∉ [']', '\x7d']
  read_append : ∀ rest, IsEnd rest → read (text ++ rest) = some (a, rest)

variable {α : Type} {part : List Char → Option (α × List Char)} {text : List Char} {a : α}

theorem isEnd_cons {c : Char} (h : isAtomChar c = false) (rest : List Char) :
    IsEnd (c :: rest) := by
  rintro d ⟨⟩
  exact h

theorem isEnd_lineAt (depth : Nat) (rest : List Char) : IsEnd (lineAt depth ++ rest) :=
  isEnd_cons rfl _

theorem skipBlanks_lineAt (depth : Nat) (rest : List Char) :
    skipBlanks (lineAt depth ++ rest) = skipBlanks rest := by
  have hall : ∀ c ∈ lineAt depth, isBlank c := by
    simp [lineAt, isBlank]
  exact List.dropWhile_append_of_pos hall

theorem skipBlanks_cons {c : Char} (h : isBlank c = false) (rest : List Char) :
    skipBlanks (c :: rest) = c :: rest := by
  simp [skipBlanks, h]

theorem Reads.skipBlanks (h : Reads part text a) (rest : List Char) :
    skipBlanks (text ++ rest) = text ++ rest := by
  obtain ⟨c, more, rfl, hc, -⟩ := h.start
  exact skipBlanks_cons hc _

theorem readParts_separatedLines {close : Char} (hclose : isBlank close = false ∧ close ≠ ',')
    (depth outer : Nat) {parts : List (List Char × α)} (h : ∀ p ∈ parts, Reads part p.1 p.2)
    (hne : parts ≠ []) (rest : List Char) :
    readParts part close
        (separatedLines depth (parts.map Prod.fst) ++ (lineAt outer ++ close :: rest)) =
      some (parts.map Prod.snd, rest) := by
  induction parts with
  | nil => exact absurd rfl hne
  | cons p more ih =>
    have hread := h p List.mem_cons_self
    rw [readParts]
    cases more with
    | nil =>
      simp only [List.map_cons, List.map_nil, separatedLines, List.append_assoc,
        skipBlanks_lineAt, hread.skipBlanks, hread.read_append _ (isEnd_lineAt _ _),
        skipBlanks_cons hclose.1, if_true]
    | cons next others =>
      have hnext := ih (fun q hq => h q (List.mem_cons_of_mem p hq)) (by simp)
      simp only [List.map_cons, separatedLines, List.append_assoc, List.cons_append,
        skipBlanks_lineAt, hread.skipBlanks] at hnext ⊢
      rw [hread.read_append _ (isEnd_cons rfl _)]
      simp only [skipBlanks_cons (show isBlank ',' = false from rfl), hclose.2.symm, if_false]
      rw [if_pos ⟨trivial, by simp; omega⟩, hnext]
      rfl

theorem isAtomChar_word (word : List Char)
    (h : word ∈ ["null", "true", "false"].map String.toList) : ∀ c ∈ word, isAtomChar c := by
  have hall : (["null", "true", "false"].map String.toList).all (List.all · isAtomChar) := by decide
  exact List.all_eq_true.mp (List.all_eq_true.mp hall word h)

/-- The parts of a collection, each on a line of its own. -/
theorem readBracket_separatedLines {close : Char} (hclose : close ∈ [']', '\x7d'])
    (depth outer : Nat) {parts : List (List Char × α)} (h : ∀ p ∈ parts, Reads part p.1 p.2)
    (hne : parts ≠ []) (rest : List Char) :
    readBracket part close
        (separatedLines depth (parts.map Prod.fst) ++ (lineAt outer ++ close :: rest)) =
      some (parts.map Prod.snd, rest) := by
  have hblank : isBlank close = false ∧ close ≠ ',' := by
    simp only [List.mem_cons, List.not_mem_nil, or_false] at hclose
    rcases hclose with rfl | rfl <;> decide
  have hparts := readParts_separatedLines hblank depth outer h hne rest
  obtain ⟨p, more, rfl⟩ := List.exists_cons_of_ne_nil hne
  obtain ⟨c, tail, htext, hc, hstart⟩ := (h p List.mem_cons_self).start
  have hhead : ∃ rest', skipBlanks (separatedLines depth ((p :: more).map Prod.fst) ++
      (lineAt outer ++ close :: rest)) = c :: rest' := by
    cases more <;>
      simp only [List.map_cons, List.map_nil, separatedLines, htext, List.append_assoc,
        List.cons_append, skipBlanks_lineAt, skipBlanks_cons hc] <;> exact ⟨_, rfl⟩
  obtain ⟨rest', hrest'⟩ := hhead
  have hne : c ≠ close := by
    rintro rfl
    exact hstart hclose
  rw [readBracket, hrest']
  simp only [hne, if_false, hparts]

theorem isAtomChar_ne {c : Char} (h : isAtomChar c) :
    isBlank c = false ∧ c ∉ ['"', '[', '\x7b', ']', '\x7d'] := by
  have hfalse : ∀ d ∈ [' ', '\n', '\r', '\t', '"', '[', '\x7b', ']', '\x7d'], !isAtomChar d :=
    List.all_eq_true.mp (by decide)
  have hnot : ∀ d ∈ [' ', '\n', '\r', '\t', '"', '[', '\x7b', ']', '\x7d'], c ≠ d := by
    rintro d hd rfl
    have hc := hfalse c hd
    simp [h] at hc
  constructor
  · simp_all [isBlank]
  · simp_all

theorem reads_atom {text : List Char} {d : Datum} (hne : text ≠ [])
    (hall : ∀ c ∈ text, isAtomChar c) (hd : atom? text = some d) (bound : Nat) :
    Reads (readValue (bound + 1)) text d := by
  obtain ⟨c, more, rfl⟩ := List.exists_cons_of_ne_nil hne
  obtain ⟨hblank, hbracket⟩ := isAtomChar_ne (hall c List.mem_cons_self)
  simp only [List.mem_cons, List.not_mem_nil, or_false, not_or] at hbracket
  refine ⟨⟨c, more, rfl, hblank, by simp [hbracket]⟩, fun rest hend => ?_⟩
  obtain ⟨htake, hdrop⟩ := span_append hall hend
  rw [List.cons_append] at htake hdrop ⊢
  simp only [readValue]
  split
  · simp_all
  · simp_all
  · simp_all
  · rw [htake, hdrop, hd]
    rfl

theorem reads_stringText (s : String) (bound : Nat) :
    Reads (readValue (bound + 1)) (stringText s.toList) (.str s) := by
  refine ⟨⟨'"', _, rfl, rfl, by simp⟩, fun rest _ => ?_⟩
  simp [stringText, readValue, readText_flatMap]

theorem reads_entry {value : List Char → Option (Datum × List Char)} {text : List Char} {d : Datum}
    (h : Reads value text d) (name : String) :
    Reads (readEntry value) (stringText name.toList ++ ':' :: ' ' :: text) (name, d) := by
  refine ⟨⟨'"', _, rfl, rfl, by simp⟩, fun rest hend => ?_⟩
  have hspace : skipBlanks (' ' :: (text ++ rest)) = text ++ rest := h.skipBlanks rest
  simp [stringText, readEntry, readText_flatMap,
    skipBlanks_cons (show isBlank ':' = false from rfl), hspace, h.read_append rest hend]

theorem length_le_separatedLines {texts : List (List Char)} {text : List Char} (h : text ∈ texts)
    (depth : Nat) : text.length ≤ (separatedLines depth texts).length := by
  induction texts with
  | nil => cases h
  | cons first rest ih =>
    cases rest with
    | nil =>
      rw [List.mem_singleton.mp h]
      simp [separatedLines]
    | cons next more =>
      simp only [separatedLines, List.length_append, List.length_cons]
      rcases List.mem_cons.mp h with rfl | h
      · omega
      · have := ih h
        omega

theorem intText_ne_nil (i : Int) : intText i ≠ [] := by
  unfold intText
  split
  · simp
  · exact natText_ne_nil _

theorem textWith_ne_nil (x : Binary64) : x.textWith scriptWords ≠ [] := by
  cases x with
  | nan => decide
  | infinite isNegative => cases isNegative <;> decide
  | finite isNegative m e =>
    obtain ⟨whole, tail, htext, hw, -⟩ := isMagnitude_magnitudeText m e
    cases isNegative
    · simp [Binary64.textWith, htext, isWhole_ne_nil hw]
    · simp [Binary64.textWith]

theorem text_ne_nil (l : Literal) (depth : Nat) : l.text depth ≠ [] := by
  cases l with
  | null => exact List.cons_ne_nil _ _
  | bool b => cases b <;> exact List.cons_ne_nil _ _
  | int i => rw [Literal.text_int]; exact intText_ne_nil i
  | float x => rw [Literal.text_float]; exact textWith_ne_nil x
  | str s => simp [Literal.text_str, stringText]
  | array items =>
    cases items with
    | nil => exact List.cons_ne_nil _ _
    | cons => simp [Literal.text_array (List.cons_ne_nil _ _)]
  | object entries =>
    cases entries with
    | nil => exact List.cons_ne_nil _ _
    | cons => simp [Literal.text_object (List.cons_ne_nil _ _)]

theorem reads_array {items : List Literal} {depth bound : Nat}
    (h : ∀ l ∈ items, Reads (readValue bound) (l.text (depth + 1)) l.datum) :
    Reads (readValue (bound + 1)) ((Literal.array items).text depth)
      (Literal.array items).datum := by
  cases items with
  | nil => exact ⟨⟨'[', _, rfl, rfl, by simp⟩, fun _ _ => rfl⟩
  | cons item more =>
    rw [Literal.text_array (List.cons_ne_nil item more)]
    refine ⟨⟨'[', _, rfl, rfl, by simp⟩, fun rest _ => ?_⟩
    have hparts : ∀ p ∈ (item :: more).map fun l => (l.text (depth + 1), l.datum),
        Reads (readValue bound) p.1 p.2 := by
      intro p hp
      obtain ⟨l, hl, rfl⟩ := List.mem_map.mp hp
      exact h l hl
    have hread := readBracket_separatedLines (List.mem_cons_self : ']' ∈ [']', '\x7d'])
      (depth + 1) depth hparts (by simp) rest
    simp only [List.map_map, Function.comp_def] at hread
    simp only [Literal.datum, Literal.data_eq_map, List.cons_append, List.append_assoc,
      List.nil_append, readValue]
    rw [hread]
    rfl

theorem reads_object {entries : List (String × Literal)} {depth bound : Nat}
    (h : ∀ entry ∈ entries, Reads (readValue bound) (entry.2.text (depth + 1)) entry.2.datum) :
    Reads (readValue (bound + 1)) ((Literal.object entries).text depth)
      (Literal.object entries).datum := by
  cases entries with
  | nil => exact ⟨⟨'\x7b', _, rfl, rfl, by simp⟩, fun _ _ => rfl⟩
  | cons entry more =>
    rw [Literal.text_object (List.cons_ne_nil entry more)]
    refine ⟨⟨'\x7b', _, rfl, rfl, by simp⟩, fun rest _ => ?_⟩
    have hparts : ∀ p ∈ (entry :: more).map fun (name, l) =>
        (stringText name.toList ++ ':' :: ' ' :: l.text (depth + 1), (name, l.datum)),
        Reads (readEntry (readValue bound)) p.1 p.2 := by
      intro p hp
      obtain ⟨⟨name, l⟩, hl, rfl⟩ := List.mem_map.mp hp
      exact reads_entry (h _ hl) name
    have hread := readBracket_separatedLines
      (List.mem_cons_of_mem _ List.mem_cons_self : '\x7d' ∈ [']', '\x7d'])
      (depth + 1) depth hparts (by simp) rest
    simp only [List.map_map, Function.comp_def] at hread
    simp only [Literal.datum, Literal.entryData_eq_map, List.cons_append, List.append_assoc,
      List.nil_append, readValue]
    rw [hread]
    rfl

theorem length_lt_array {items : List Literal} {l : Literal} (h : l ∈ items) (depth : Nat) :
    (l.text (depth + 1)).length < ((Literal.array items).text depth).length := by
  cases items with
  | nil => cases h
  | cons item more =>
    have hmem : l.text (depth + 1) ∈ (item :: more).map (Literal.text (depth + 1)) :=
      List.mem_map_of_mem h
    have hpart := length_le_separatedLines hmem (depth + 1)
    rw [Literal.text_array (List.cons_ne_nil item more)]
    simp only [List.length_append, List.length_cons]
    omega

theorem length_lt_object {entries : List (String × Literal)} {entry : String × Literal}
    (h : entry ∈ entries) (depth : Nat) :
    (entry.2.text (depth + 1)).length < ((Literal.object entries).text depth).length := by
  cases entries with
  | nil => cases h
  | cons first more =>
    have hmem : stringText entry.1.toList ++ ':' :: ' ' :: entry.2.text (depth + 1) ∈
        (first :: more).map fun (name, value) =>
          stringText name.toList ++ ':' :: ' ' :: value.text (depth + 1) :=
      List.mem_map_of_mem (f := fun (name, value) =>
        stringText name.toList ++ ':' :: ' ' :: Literal.text (depth + 1) value) h
    have hpart := length_le_separatedLines hmem (depth + 1)
    rw [Literal.text_object (List.cons_ne_nil first more)]
    simp only [List.length_append, List.length_cons] at hpart ⊢
    omega

theorem exists_succ_of_length_le {l : Literal} {depth bound : Nat}
    (h : (l.text depth).length ≤ bound) : ∃ b, bound = b + 1 := by
  have hpos := List.length_pos_iff.mpr (text_ne_nil l depth)
  exact ⟨bound - 1, by omega⟩

/-- A literal is read whole, if the bound allows for its length. -/
theorem reads_text (l : Literal) {depth bound : Nat} (h : (l.text depth).length ≤ bound) :
    Reads (readValue bound) (l.text depth) l.datum := by
  induction l using Literal.induction generalizing depth bound
  all_goals obtain ⟨bound, rfl⟩ := exists_succ_of_length_le h
  case null => exact reads_atom (by decide) (isAtomChar_word "null".toList (by simp)) rfl bound
  case bool b =>
    cases b with
    | true => exact reads_atom (by decide) (isAtomChar_word "true".toList (by simp)) rfl bound
    | false => exact reads_atom (by decide) (isAtomChar_word "false".toList (by simp)) rfl bound
  case int i =>
    rw [Literal.text_int]
    exact reads_atom (intText_ne_nil i) (fun _ => isAtomChar_intText) (atom?_intText i) bound
  case float x =>
    rw [Literal.text_float]
    exact reads_atom (textWith_ne_nil x) (fun _ => isAtomChar_textWith) (atom?_textWith x) bound
  case str s => exact Literal.text_str s ▸ reads_stringText s bound
  case array items ih =>
    refine reads_array fun l hl => ih l hl ?_
    have hless := length_lt_array hl depth
    omega
  case object entries ih =>
    refine reads_object fun entry hentry => ih entry hentry ?_
    have hless := length_lt_object hentry depth
    omega

end Reading

end SymbolExport
