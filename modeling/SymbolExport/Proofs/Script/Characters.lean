import SymbolExport.Proofs.Script.Numeral
import SymbolExport.Proofs.Script.Quotation
import SymbolExport.Proofs.Script.RoundTrip

/-!
The characters of a literal. It is made of printable characters, of the line ends of its layout and
of escapes, and a slash stands in an escape only, so that no literal ends the script element around
it.
-/
namespace SymbolExport

open SymbolExport.Number SymbolExport.Reading SymbolExport.Text

def isPrintableAscii (c : Char) : Bool :=
  ' ' ≤ c && c ≤ '~'

/-- A character that may stand outside of an escape. -/
def isPlainChar (c : Char) : Bool :=
  c = '\n' || isPrintableAscii c && c ≠ '/' && c ≠ '\\'

/-- Plain characters and escapes, which start with a backslash and of which the next character is a
part, whatever it is. -/
inductive IsPlainText : List Char → Prop
  | nil : IsPlainText []
  | plain {c : Char} {rest : List Char} (hc : isPlainChar c) (h : IsPlainText rest) :
      IsPlainText (c :: rest)
  | escape {c : Char} {rest : List Char} (hc : isPrintableAscii c) (h : IsPlainText rest) :
      IsPlainText ('\\' :: c :: rest)

namespace IsPlainText

variable {cs ds : List Char}

theorem append (h : IsPlainText cs) (h' : IsPlainText ds) : IsPlainText (cs ++ ds) := by
  induction h with
  | nil => exact h'
  | plain hc _ ih => exact .plain hc ih
  | escape hc _ ih => exact .escape hc ih

theorem of_forall (h : ∀ c ∈ cs, isPlainChar c) : IsPlainText cs := by
  induction cs with
  | nil => exact .nil
  | cons c rest ih =>
    exact .plain (h c List.mem_cons_self) (ih fun d hd => h d (List.mem_cons_of_mem c hd))

theorem of_all (h : cs.all isPlainChar) : IsPlainText cs :=
  of_forall (List.all_eq_true.mp h)

theorem flatMap {α : Type} {items : List α} {f : α → List Char}
    (h : ∀ a ∈ items, IsPlainText (f a)) : IsPlainText (items.flatMap f) := by
  induction items with
  | nil => exact .nil
  | cons a rest ih =>
    rw [List.flatMap_cons]
    exact (h a List.mem_cons_self).append (ih fun b hb => h b (List.mem_cons_of_mem a hb))

theorem of_mem (h : IsPlainText cs) {c : Char} (hc : c ∈ cs) : c = '\n' ∨ isPrintableAscii c := by
  induction h with
  | nil => cases hc
  | @plain d rest hd _ ih =>
    rcases List.mem_cons.mp hc with rfl | hc
    · simp only [isPlainChar, Bool.or_eq_true, Bool.and_eq_true, decide_eq_true_eq] at hd
      exact hd.imp_right fun hd => hd.1.1
    · exact ih hc
  | @escape d rest hd _ ih =>
    rcases List.mem_cons.mp hc with rfl | hc
    · exact Or.inr rfl
    rcases List.mem_cons.mp hc with rfl | hc
    · exact Or.inr hd
    · exact ih hc

end IsPlainText

theorem toNat_of_isPrintableAscii {c : Char} (h : isPrintableAscii c) :
    0x20 ≤ c.toNat ∧ c.toNat < 0x80 := by
  simp only [isPrintableAscii, Bool.and_eq_true, decide_eq_true_eq, Char.le_def,
    UInt32.le_iff_toNat_le] at h
  exact ⟨h.1, Nat.lt_of_le_of_lt h.2 (by decide)⟩

/-- Every slash follows a backslash that starts an escape. -/
def slashesEscaped : List Char → Bool
  | '\\' :: _ :: rest => slashesEscaped rest
  | c :: rest => c ≠ '/' && slashesEscaped rest
  | [] => true

theorem slashesEscaped_cons {c : Char} (hc : c ≠ '\\') (rest : List Char) :
    slashesEscaped (c :: rest) = (c ≠ '/' && slashesEscaped rest) := by
  rw [slashesEscaped.eq_def]
  split <;> simp_all

theorem IsPlainText.slashesEscaped {cs : List Char} (h : IsPlainText cs) :
    SymbolExport.slashesEscaped cs := by
  induction h with
  | nil => rfl
  | @plain c rest hc _ ih =>
    have hslash : c ≠ '/' ∧ c ≠ '\\' := by
      constructor <;> rintro rfl <;> cases hc
    simp [slashesEscaped_cons hslash.2, hslash.1, ih]
  | escape _ _ ih => exact ih

theorem IsPlainText.ne_slash {c : Char} {rest : List Char} (h : IsPlainText (c :: rest)) :
    c ≠ '/' := by
  rintro rfl
  cases h with
  | plain hc _ => cases hc

theorem IsPlainText.not_infix {cs : List Char} (h : IsPlainText cs) : ¬ ['<', '/'] <:+: cs := by
  have hstart : ∀ {c : Char} {rest : List Char}, IsPlainText rest → ¬ ['<', '/'] <+: c :: rest := by
    rintro c rest hrest ⟨tail, htail⟩
    obtain ⟨-, rfl⟩ := List.cons.inj htail
    exact hrest.ne_slash rfl
  induction h with
  | nil => simp
  | plain _ hrest ih =>
    rw [List.infix_cons_iff, not_or]
    exact ⟨hstart hrest, ih⟩
  | escape _ hrest ih =>
    rw [List.infix_cons_iff, List.infix_cons_iff, not_or, not_or]
    exact ⟨by simp, hstart hrest, ih⟩

/-- A text that can stand in a script element: there are only ASCII characters, the only control
characters are line ends, and every slash is escaped, so that the element does not end in it. -/
structure IsSafeText (cs : List Char) : Prop where
  ascii : ∀ c ∈ cs, c.toNat < 0x80
  control : ∀ c ∈ cs, c.toNat < 0x20 → c = '\n'
  slashes : slashesEscaped cs
  noClosing : ¬ ['<', '/'] <:+: cs

theorem IsPlainText.isSafeText {cs : List Char} (h : IsPlainText cs) : IsSafeText cs where
  ascii := by
    intro c hc
    rcases h.of_mem hc with rfl | hc
    · decide
    · exact (toNat_of_isPrintableAscii hc).2
  control := by
    intro c hc hlow
    rcases h.of_mem hc with rfl | hc
    · rfl
    · have hbounds := toNat_of_isPrintableAscii hc
      omega
  slashes := h.slashesEscaped
  noClosing := h.not_infix

theorem isPlainChar_of_isAtomChar {c : Char} (h : isAtomChar c) : isPlainChar c := by
  have hslash : c ≠ '/' ∧ c ≠ '\\' := by
    constructor <;> rintro rfl <;> cases h
  have hbounds : 0x20 ≤ c.val.toNat ∧ c.val.toNat ≤ 0x7e := by
    simp only [isAtomChar, Char.isAlphanum, Char.isAlpha, Char.isUpper, Char.isLower, Char.isDigit,
      Bool.or_eq_true, Bool.and_eq_true, decide_eq_true_eq, UInt32.le_iff_toNat_le] at h
    have hends : 'A'.val.toNat = 65 ∧ 'Z'.val.toNat = 90 ∧ 'a'.val.toNat = 97 ∧
      'z'.val.toNat = 122 ∧ '0'.val.toNat = 48 ∧ '9'.val.toNat = 57 := by decide
    rcases h with ((h | rfl) | rfl) | rfl
    · omega
    all_goals decide
  have hprintable : isPrintableAscii c := by
    simpa [isPrintableAscii, Char.le_def, UInt32.le_iff_toNat_le] using hbounds
  simp [isPlainChar, hprintable, hslash]

theorem isPlainText_escapeUnit (n : Nat) : IsPlainText (escapeUnit n) := by
  have hdigit : ∀ c ∈ "0123456789abcdef".toList, isPlainChar c := List.all_eq_true.mp (by decide)
  exact .escape rfl (.of_forall fun c hc => hdigit c (mem_hexDigits hc))

theorem isPlainText_escapeChar (c : Char) : IsPlainText (escapeChar c) := by
  rcases escapeChar_cases c with ⟨e, he, htext⟩ | ⟨hplain, hlow, hhigh, htext⟩ | htext
  · rw [htext]
    refine .escape ?_ .nil
    unfold shortEscape? at he
    split at he <;> first | rfl | cases he
  · rw [htext]
    refine .plain ?_ .nil
    simp_all [isPlainChar, isPrintableAscii]
  · rw [htext]
    exact .flatMap fun u _ => isPlainText_escapeUnit u

theorem isPlainText_stringText (cs : List Char) : IsPlainText (stringText cs) :=
  (IsPlainText.plain rfl (.flatMap fun c _ => isPlainText_escapeChar c)).append (.plain rfl .nil)

theorem isPlainText_lineAt (depth : Nat) : IsPlainText (lineAt depth) := by
  refine .of_forall fun c hc => ?_
  simp only [lineAt, List.mem_cons, List.mem_replicate] at hc
  rcases hc with rfl | ⟨-, rfl⟩ <;> rfl

theorem isPlainText_separatedLines {texts : List (List Char)}
    (h : ∀ text ∈ texts, IsPlainText text) (depth : Nat) :
    IsPlainText (separatedLines depth texts) := by
  induction texts with
  | nil => exact .nil
  | cons text rest ih =>
    have hline := (isPlainText_lineAt depth).append (h text List.mem_cons_self)
    have hrest := ih fun t ht => h t (List.mem_cons_of_mem text ht)
    cases rest with
    | nil => exact hline
    | cons next more => exact hline.append (.plain rfl hrest)

theorem isPlainText_text (l : Literal) (depth : Nat) : IsPlainText (l.text depth) := by
  induction l using Literal.induction generalizing depth with
  | null => exact (.of_all (by decide) : IsPlainText "null".toList)
  | bool b =>
    cases b with
    | true => exact (.of_all (by decide) : IsPlainText "true".toList)
    | false => exact (.of_all (by decide) : IsPlainText "false".toList)
  | int i =>
    rw [Literal.text_int]
    exact .of_forall fun c hc => isPlainChar_of_isAtomChar (isAtomChar_intText hc)
  | float x =>
    rw [Literal.text_float]
    exact .of_forall fun c hc => isPlainChar_of_isAtomChar (isAtomChar_textWith hc)
  | str s =>
    rw [Literal.text_str]
    exact isPlainText_stringText _
  | array items ih =>
    cases items with
    | nil => exact (.of_all (by decide) : IsPlainText ['[', ']'])
    | cons item more =>
      rw [Literal.text_array (List.cons_ne_nil item more)]
      refine (IsPlainText.plain rfl (isPlainText_separatedLines ?_ _)).append
        (isPlainText_lineAt depth) |>.append (.plain rfl .nil)
      rintro text htext
      obtain ⟨l, hl, rfl⟩ := List.mem_map.mp htext
      exact ih l hl _
  | object entries ih =>
    cases entries with
    | nil => exact (.of_all (by decide) : IsPlainText ['\x7b', '\x7d'])
    | cons entry more =>
      rw [Literal.text_object (List.cons_ne_nil entry more)]
      refine (IsPlainText.plain rfl (isPlainText_separatedLines ?_ _)).append
        (isPlainText_lineAt depth) |>.append (.plain rfl .nil)
      rintro text htext
      obtain ⟨⟨name, l⟩, hl, rfl⟩ := List.mem_map.mp htext
      exact (isPlainText_stringText _).append (.plain rfl (.plain rfl (ih _ hl _)))

end SymbolExport
