import SymbolExport.Proofs.Script.Numeral

/-!
Escaping the slashes of a literal after it is serialized is escaping them character by character,
since a slash stands inside of texts only. So the text of a literal is put together of the texts of
its parts.
-/
namespace SymbolExport

open SymbolExport.Number SymbolExport.Reading SymbolExport.Text

/-- How a character of a text stands in a module. -/
def escapeChar (c : Char) : List Char :=
  escapeSlashes (serializeChar c)

def stringText (cs : List Char) : List Char :=
  '"' :: cs.flatMap escapeChar ++ ['"']

variable {cs ds : List Char}

theorem escapeSlashes_of_notMem (h : '/' ∉ cs) : escapeSlashes cs = cs := by
  induction cs with
  | nil => rfl
  | cons c rest ih =>
    rw [List.mem_cons, not_or] at h
    obtain ⟨hc, hrest⟩ := h
    rw [escapeSlashes, List.flatMap_cons, ← escapeSlashes, ih hrest, if_neg (Ne.symm hc)]
    rfl

@[simp] theorem escapeSlashes_append (cs ds : List Char) :
    escapeSlashes (cs ++ ds) = escapeSlashes cs ++ escapeSlashes ds :=
  List.flatMap_append

theorem escapeSlashes_cons {c : Char} (h : c ≠ '/') (cs : List Char) :
    escapeSlashes (c :: cs) = c :: escapeSlashes cs := by
  rw [escapeSlashes, List.flatMap_cons, if_neg h]
  rfl

theorem mem_hexDigits {width n : Nat} {c : Char} (h : c ∈ hexDigits width n) :
    c ∈ "0123456789abcdef".toList := by
  have hdigit : ∀ d < 16, Nat.digitChar d ∈ "0123456789abcdef".toList := by decide
  have hdigits : ∀ m, ∀ c ∈ Nat.toDigits 16 m, c ∈ "0123456789abcdef".toList := by
    intro m
    induction m using Nat.strongRecOn with
    | ind m ih =>
      intro c hc
      by_cases hm : m < 16
      · rw [Nat.toDigits_of_lt_base hm, List.mem_singleton] at hc
        rw [hc]
        exact hdigit m hm
      · rw [Nat.toDigits_of_base_le (by omega) (by omega), List.mem_append] at hc
        rcases hc with hc | hc
        · exact ih (m / 16) (by omega) c hc
        · rw [List.mem_singleton.mp hc]
          exact hdigit _ (Nat.mod_lt _ (by omega))
  rcases List.mem_append.mp h with h | h
  · rw [(List.mem_replicate.mp h).2]
    decide
  · exact hdigits n c h

theorem slash_notMem_escapeUnit (n : Nat) : '/' ∉ escapeUnit n := by
  intro h
  rcases List.mem_cons.mp h with h | h
  · cases h
  rcases List.mem_cons.mp h with h | h
  · cases h
  · exact absurd (mem_hexDigits h) (by decide)

theorem slash_notMem_lineAt (depth : Nat) : '/' ∉ lineAt depth := by
  simp [lineAt]

theorem slash_notMem_of_isAtomChar (h : ∀ c ∈ cs, isAtomChar c) : '/' ∉ cs :=
  fun hm => absurd (h '/' hm) (by decide)

/-- Serialising a text and then escaping its slashes treats each character in one step. -/
theorem escapeSlashes_serializeString (cs : List Char) :
    escapeSlashes (serializeString cs) = stringText cs := by
  have hchars : escapeSlashes (cs.flatMap serializeChar) = cs.flatMap escapeChar := by
    induction cs with
    | nil => rfl
    | cons c rest ih => simp [ih, escapeChar]
  rw [serializeString, stringText, escapeSlashes_append, escapeSlashes_cons (by decide), hchars]
  rfl

theorem escapeSlashes_separatedLines (depth : Nat) (parts : List (List Char)) :
    escapeSlashes (separatedLines depth parts) =
      separatedLines depth (parts.map escapeSlashes) := by
  have hline := escapeSlashes_of_notMem (slash_notMem_lineAt depth)
  induction parts with
  | nil => rfl
  | cons part rest ih =>
    cases rest with
    | nil => simp [separatedLines, hline]
    | cons next more =>
      have hcomma := escapeSlashes_cons (show ',' ≠ '/' by decide)
      simp only [separatedLines, List.map_cons, escapeSlashes_append, hline, hcomma] at ih ⊢
      rw [ih]

namespace Literal

variable {depth : Nat}

theorem map_escapeSlashes_serializeItems (depth : Nat) (items : List Literal) :
    (serializeItems depth items).map escapeSlashes = items.map (text depth) := by
  induction items with
  | nil => rfl
  | cons item rest ih => simp [serializeItems, ih, text]

theorem map_escapeSlashes_serializeEntries (depth : Nat) (entries : List (String × Literal)) :
    (serializeEntries depth entries).map escapeSlashes = entries.map fun (name, value) =>
      stringText name.toList ++ ':' :: ' ' :: value.text depth := by
  induction entries with
  | nil => rfl
  | cons entry rest ih =>
    simp only [serializeEntries, List.map_cons, ih, escapeSlashes_append,
      escapeSlashes_serializeString]
    rfl

theorem text_int (i : Int) : text depth (.int i) = intText i :=
  escapeSlashes_of_notMem (slash_notMem_of_isAtomChar fun _ => isAtomChar_intText)

theorem text_float (x : Binary64) : text depth (.float x) = x.textWith scriptWords :=
  escapeSlashes_of_notMem (slash_notMem_of_isAtomChar fun _ => isAtomChar_textWith)

theorem text_str (s : String) : text depth (.str s) = stringText s.toList :=
  escapeSlashes_serializeString s.toList

theorem text_array {items : List Literal} (h : items ≠ []) : text depth (.array items) =
    '[' :: separatedLines (depth + 1) (items.map (text (depth + 1))) ++ lineAt depth ++ [']'] := by
  have hserialize : serialize depth (.array items) =
      '[' :: separatedLines (depth + 1) (serializeItems (depth + 1) items) ++ lineAt depth ++
        [']'] := by
    cases items with
    | nil => exact absurd rfl h
    | cons => rfl
  rw [text, hserialize, escapeSlashes_append, escapeSlashes_append,
    escapeSlashes_cons (by decide), escapeSlashes_separatedLines,
    map_escapeSlashes_serializeItems, escapeSlashes_of_notMem (slash_notMem_lineAt depth)]
  rfl

theorem text_object {entries : List (String × Literal)} (h : entries ≠ []) :
    text depth (.object entries) =
      '\x7b' :: separatedLines (depth + 1) (entries.map fun (name, value) =>
        stringText name.toList ++ ':' :: ' ' :: value.text (depth + 1)) ++ lineAt depth ++
          ['\x7d'] := by
  have hserialize : serialize depth (.object entries) =
      '\x7b' :: separatedLines (depth + 1) (serializeEntries (depth + 1) entries) ++
        lineAt depth ++ ['\x7d'] := by
    cases entries with
    | nil => exact absurd rfl h
    | cons => rfl
  rw [text, hserialize, escapeSlashes_append, escapeSlashes_append,
    escapeSlashes_cons (by decide), escapeSlashes_separatedLines,
    map_escapeSlashes_serializeEntries, escapeSlashes_of_notMem (slash_notMem_lineAt depth)]
  rfl

end Literal

end SymbolExport
