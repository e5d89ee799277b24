import SymbolExport.Proofs.Script.Slashes

/-! Quoted texts read back: every character gives its units, and the units give the character. -/
namespace SymbolExport.Reading

open SymbolExport.Text

theorem hexValue?_digitChar {d : Nat} (h : d < 16) : hexValue? (Nat.digitChar d) = some d := by
  have hall : ∀ e < 16, hexValue? (Nat.digitChar e) = some e := by decide
  exact hall d h

theorem hexNumber?_append (cs : List Char) {n d : Nat} {c : Char} (h : hexNumber? cs = some n)
    (hd : hexValue? c = some d) : hexNumber? (cs ++ [c]) = some (16 * n + d) := by
  rw [hexNumber?] at h
  simp [hexNumber?, List.foldlM_append, h, hd]

theorem hexNumber?_toDigits (n : Nat) : hexNumber? (Nat.toDigits 16 n) = some n := by
  induction n using Nat.strongRecOn with
  | ind n ih =>
    by_cases h : n < 16
    · simp [Nat.toDigits_of_lt_base h, hexNumber?, hexValue?_digitChar h]
    · have hlast := hexValue?_digitChar (Nat.mod_lt n (by omega : 16 > 0))
      rw [Nat.toDigits_of_base_le (by omega) (by omega),
        hexNumber?_append _ (ih (n / 16) (by omega)) hlast]
      congr 1
      omega

theorem hexNumber?_hexDigits (width n : Nat) : hexNumber? (hexDigits width n) = some n := by
  have hzero : ∀ k, hexNumber? (List.replicate k '0' ++ Nat.toDigits 16 n) = some n := by
    intro k
    induction k with
    | zero => exact hexNumber?_toDigits n
    | succ k ih => exact ih
  exact hzero _

theorem length_hexDigits {width n : Nat} (hw : 0 < width) (h : n < 16 ^ width) :
    (hexDigits width n).length = width := by
  have hlength := (Nat.length_toDigits_le_iff (by omega : 1 < 16) hw).mpr h
  simp only [hexDigits, List.length_append, List.length_replicate]
  omega

theorem readUnits_escapeUnit {n : Nat} (h : n < 0x10000) (rest : List Char) :
    readUnits (escapeUnit n ++ rest) =
      (readUnits rest).map fun (units, rest) => (n :: units, rest) := by
  obtain ⟨a, b, c, d, hdigits⟩ : ∃ a b c d, hexDigits 4 n = [a, b, c, d] := by
    match hexDigits 4 n, length_hexDigits (by omega : 0 < 4) h with
    | [a, b, c, d], _ => exact ⟨a, b, c, d, rfl⟩
  have hn := hexNumber?_hexDigits 4 n
  rw [hdigits] at hn
  simp only [escapeUnit, hdigits, List.cons_append, List.nil_append, readUnits, hn]
  cases readUnits rest <;> rfl

theorem unitsOf_of_shortEscape {e c : Char} (h : shortEscape? e = some c) :
    unitsOf c = [c.toNat] := by
  unfold shortEscape? at h
  split at h <;> cases h <;> rfl

theorem readUnits_shortEscape {e c : Char} (he : shortEscape? e = some c) (rest : List Char) :
    readUnits ('\\' :: e :: rest) =
      (readUnits rest).map fun (units, rest) => (c.toNat :: units, rest) := by
  have hu : e ≠ 'u' := by
    rintro rfl
    cases he
  rw [readUnits.eq_def]
  split
  · simp_all
  · simp_all
  · simp_all
  · rename_i heq
    simp only [List.cons.injEq, true_and] at heq
    obtain ⟨rfl, rfl⟩ := heq
    rw [he]
    cases readUnits rest <;> rfl
  · rename_i hnone heq
    obtain ⟨rfl, rfl⟩ := List.cons.inj heq
    exact absurd rfl (hnone _ _ rfl)

theorem readUnits_plain {c : Char} (hquote : c ≠ '"') (hslash : c ≠ '\\') (hc : ' ' ≤ c)
    (rest : List Char) : readUnits (c :: rest) =
      (readUnits rest).map fun (units, rest) => (unitsOf c ++ units, rest) := by
  rw [readUnits.eq_def]
  split
  · simp_all
  · simp_all
  · simp_all
  · simp_all
  · rename_i heq
    obtain ⟨rfl, rfl⟩ := List.cons.inj heq
    have hlow : ¬ (c < ' ' ∨ c = '\\') := by
      rintro (h | h)
      · exact absurd hc (Char.not_le.mpr h)
      · exact hslash h
    rw [if_neg hlow]
    cases readUnits rest <;> rfl

theorem toNat_valid (c : Char) :
    c.toNat < 0xd800 ∨ 0xdfff < c.toNat ∧ c.toNat < 0x110000 :=
  c.valid

theorem unitsOf_lt {c : Char} {u : Nat} (h : u ∈ unitsOf c) : u < 0x10000 := by
  have hvalid := toNat_valid c
  unfold unitsOf at h
  split at h
  · simp_all
  · simp only [List.mem_cons, List.not_mem_nil, or_false] at h
    omega

theorem readUnits_escapeUnits {units : List Nat} (h : ∀ u ∈ units, u < 0x10000)
    (rest : List Char) : readUnits (units.flatMap escapeUnit ++ rest) =
      (readUnits rest).map fun (more, rest) => (units ++ more, rest) := by
  induction units with
  | nil => simp
  | cons u more ih =>
    rw [List.flatMap_cons, List.append_assoc, readUnits_escapeUnit (h u List.mem_cons_self),
      ih fun v hv => h v (List.mem_cons_of_mem u hv)]
    cases readUnits rest <;> rfl

/-- A character is escaped shortly, stands for itself, or is written by its units. -/
theorem escapeChar_cases (c : Char) :
    (∃ e, shortEscape? e = some c ∧ escapeChar c = ['\\', e]) ∨
      (c ∉ ['"', '\\', '/'] ∧ ' ' ≤ c ∧ c ≤ '~' ∧ escapeChar c = [c]) ∨
      escapeChar c = (unitsOf c).flatMap escapeUnit := by
  by_cases hshort : c ∈ ['"', '\\', '/', '\n', '\r', '\t', '\x08', '\x0c']
  · left
    simp only [List.mem_cons, List.not_mem_nil, or_false] at hshort
    rcases hshort with rfl | rfl | rfl | rfl | rfl | rfl | rfl | rfl <;> exact ⟨_, rfl, rfl⟩
  · right
    simp only [List.mem_cons, List.not_mem_nil, or_false, not_or] at hshort ⊢
    obtain ⟨h1, h2, h3, h4, h5, h6, h7, h8⟩ := hshort
    unfold escapeChar serializeChar unitsOf
    simp only [h1, h2, h4, h5, h6, h7, h8, if_false]
    by_cases hplain : ' ' ≤ c ∧ c ≤ '~'
    · left
      simp [hplain, h3, escapeSlashes]
    · right
      rw [if_neg (by simpa using hplain)]
      split <;> simp [escapeSlashes_of_notMem (slash_notMem_escapeUnit _)]

theorem readUnits_escapeChar (c : Char) (rest : List Char) :
    readUnits (escapeChar c ++ rest) =
      (readUnits rest).map fun (units, rest) => (unitsOf c ++ units, rest) := by
  rcases escapeChar_cases c with ⟨e, he, htext⟩ | ⟨hplain, hlow, -, htext⟩ | htext
  · rw [htext, unitsOf_of_shortEscape he]
    exact readUnits_shortEscape he rest
  · simp only [List.mem_cons, not_or] at hplain
    rw [htext]
    exact readUnits_plain hplain.1 hplain.2.1 hlow rest
  · rw [htext]
    exact readUnits_escapeUnits (fun u hu => unitsOf_lt hu) rest

theorem readUnits_flatMap (cs rest : List Char) :
    readUnits (cs.flatMap escapeChar ++ '"' :: rest) = some (cs.flatMap unitsOf, rest) := by
  induction cs with
  | nil => simp [readUnits]
  | cons c more ih => simp [readUnits_escapeChar, ih]

theorem decodeUnits_unitsOf (c : Char) (units : List Nat) :
    decodeUnits (unitsOf c ++ units) = (decodeUnits units).map (c :: ·) := by
  have hvalid := toNat_valid c
  unfold unitsOf
  split
  · rename_i hfirst
    have h1 : ¬ (0xd800 ≤ c.toNat ∧ c.toNat < 0xdc00) := by omega
    have h2 : ¬ (0xdc00 ≤ c.toNat ∧ c.toNat < 0xe000) := by omega
    simp only [List.cons_append, List.nil_append]
    rw [decodeUnits.eq_def]
    simp [h1, h2]
  · rename_i hfirst
    have hhigh : 0xd800 + (c.toNat - 0x10000) / 0x400 < 0xdc00 := by omega
    have hlow : 0xdc00 + (c.toNat - 0x10000) % 0x400 < 0xe000 := by omega
    have hc : 0x10000 + (c.toNat - 0x10000) / 0x400 * 0x400 + (c.toNat - 0x10000) % 0x400 =
        c.toNat := by omega
    simp [decodeUnits, hhigh, hlow, hc]

theorem decodeUnits_flatMap (cs : List Char) : decodeUnits (cs.flatMap unitsOf) = some cs := by
  induction cs with
  | nil => simp [decodeUnits]
  | cons c more ih => simp [decodeUnits_unitsOf, ih]

theorem readText_flatMap (s : String) (rest : List Char) :
    readText (s.toList.flatMap escapeChar ++ '"' :: rest) = some (s, rest) := by
  simp [readText, readUnits_flatMap, decodeUnits_flatMap]

end SymbolExport.Reading
