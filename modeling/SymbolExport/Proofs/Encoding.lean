import SymbolExport.Text.Utf8

/-!
Reading back what has been encoded. The bytes of a character are read as this character, whatever
follows them, so that every text is read from its own bytes.
-/
namespace SymbolExport.Text

variable {b : UInt8} {s : Utf8Sequence} {k l m n position : Nat} {rest : List UInt8}

theorem toNat_ofNat_byte (h : n < 256) : (UInt8.ofNat n).toNat = n := by
  rw [UInt8.toNat_ofNat', Nat.mod_eq_of_lt h]

/-! The first byte of a sequence tells how many follow, and what bounds the second one. -/

theorem opened?_two (hm : 2 ≤ m) (hm' : m < 32) :
    Utf8Sequence.opened? position (UInt8.ofNat (m + 0xc0)) =
      some ⟨position, UInt8.ofNat (m + 0xc0), m, 0x80, 0xbf, 1⟩ := by
  have hbyte : (UInt8.ofNat (m + 0xc0)).toNat = m + 0xc0 := toNat_ofNat_byte (by omega)
  simp only [Utf8Sequence.opened?, hbyte]
  rw [if_neg (by omega), if_pos (by omega), Nat.add_sub_cancel]

theorem opened?_three (hm : m < 16) :
    Utf8Sequence.opened? position (UInt8.ofNat (m + 0xe0)) =
      some ⟨position, UInt8.ofNat (m + 0xe0), m, if m = 0 then 0xa0 else 0x80,
        if m = 13 then 0x9f else 0xbf, 2⟩ := by
  have hbyte : (UInt8.ofNat (m + 0xe0)).toNat = m + 0xe0 := toNat_ofNat_byte (by omega)
  simp only [Utf8Sequence.opened?, hbyte]
  rw [if_neg (by omega), if_neg (by omega), if_pos (by omega), Nat.add_sub_cancel]
  simp

theorem opened?_four (hm : m < 5) :
    Utf8Sequence.opened? position (UInt8.ofNat (m + 0xf0)) =
      some ⟨position, UInt8.ofNat (m + 0xf0), m, if m = 0 then 0x90 else 0x80,
        if m = 4 then 0x8f else 0xbf, 3⟩ := by
  have hbyte : (UInt8.ofNat (m + 0xf0)).toNat = m + 0xf0 := toNat_ofNat_byte (by omega)
  simp only [Utf8Sequence.opened?, hbyte]
  rw [if_neg (by omega), if_neg (by omega), if_neg (by omega), if_pos (by omega),
    Nat.add_sub_cancel]
  simp

theorem decodeUtf8From_opened (ho : Utf8Sequence.opened? position b = some s) :
    decodeUtf8From position none (b :: rest) = decodeUtf8From (position + 1) (some s) rest := by
  have hb : ¬ b < 0x80 := by
    intro hb
    have hlow : b.toNat < 0x80 := UInt8.lt_iff_toNat_lt.mp hb
    have hfirst : b.toNat < 0xc2 := by omega
    simp [Utf8Sequence.opened?, hfirst] at ho
  rw [decodeUtf8From, if_neg hb, ho]

/-- Every further byte holds six more bits. -/
theorem decodeUtf8From_tail (hn : n < 64) (hlow : s.low.toNat ≤ n + 0x80)
    (hhigh : n + 0x80 ≤ s.high.toNat) :
    decodeUtf8From position (some s) (UInt8.ofNat (n + 0x80) :: rest) =
      if s.left ≤ 1 then
        (decodeUtf8From (position + 1) none rest).map (Char.ofNat (s.value * 64 + n) :: ·)
      else decodeUtf8From (position + 1)
        (some ⟨s.start, s.lead, s.value * 64 + n, 0x80, 0xbf, s.left - 1⟩) rest := by
  have hbyte : (UInt8.ofNat (n + 0x80)).toNat = n + 0x80 := toNat_ofNat_byte (by omega)
  have hb : s.low ≤ UInt8.ofNat (n + 0x80) ∧ UInt8.ofNat (n + 0x80) ≤ s.high := by
    rw [UInt8.le_iff_toNat_le, UInt8.le_iff_toNat_le, hbyte]
    exact ⟨hlow, hhigh⟩
  rw [decodeUtf8From, if_pos hb, Utf8Sequence.push, hbyte, Nat.add_sub_cancel]

/-- The last two bytes of a sequence, where nothing but the six bits matters any more. -/
theorem decodeUtf8From_lastTwo {start : Nat} {lead : UInt8} (hn : n < 64) (hk : k < 64) :
    decodeUtf8From position (some ⟨start, lead, m, 0x80, 0xbf, 2⟩)
      (UInt8.ofNat (n + 0x80) :: UInt8.ofNat (k + 0x80) :: rest) =
      (decodeUtf8From (position + 2) none rest).map (Char.ofNat ((m * 64 + n) * 64 + k) :: ·) := by
  rw [decodeUtf8From_tail hn (by simp) (by simp; omega), if_neg (by simp),
    decodeUtf8From_tail hk (by simp) (by simp; omega), if_pos (by simp)]

theorem decodeUtf8From_two (position : Nat) (rest : List UInt8) (hm : 2 ≤ m) (hm' : m < 32)
    (hn : n < 64) :
    decodeUtf8From position none (UInt8.ofNat (m + 0xc0) :: UInt8.ofNat (n + 0x80) :: rest) =
      (decodeUtf8From (position + 2) none rest).map (Char.ofNat (m * 64 + n) :: ·) := by
  rw [decodeUtf8From_opened (opened?_two hm hm'),
    decodeUtf8From_tail hn (by simp) (by simp; omega), if_pos (by simp)]

theorem decodeUtf8From_three (position : Nat) (rest : List UInt8) (hm : m < 16) (hn : n < 64)
    (hk : k < 64) (hlow : m = 0 → 32 ≤ n) (hhigh : m = 13 → n < 32) :
    decodeUtf8From position none
      (UInt8.ofNat (m + 0xe0) :: UInt8.ofNat (n + 0x80) :: UInt8.ofNat (k + 0x80) :: rest) =
      (decodeUtf8From (position + 3) none rest).map (Char.ofNat ((m * 64 + n) * 64 + k) :: ·) := by
  have hbottom : (if m = 0 then 0xa0 else 0x80 : UInt8).toNat ≤ n + 0x80 := by
    split <;> simp
    omega
  have htop : n + 0x80 ≤ (if m = 13 then 0x9f else 0xbf : UInt8).toNat := by
    split <;> (simp; omega)
  rw [decodeUtf8From_opened (opened?_three hm), decodeUtf8From_tail hn hbottom htop,
    if_neg (by simp), decodeUtf8From_tail hk (by simp) (by simp; omega), if_pos (by simp)]

theorem decodeUtf8From_four (position : Nat) (rest : List UInt8) (hm : m < 5) (hn : n < 64)
    (hk : k < 64) (hl : l < 64) (hlow : m = 0 → 16 ≤ n) (hhigh : m = 4 → n < 16) :
    decodeUtf8From position none (UInt8.ofNat (m + 0xf0) :: UInt8.ofNat (n + 0x80) ::
      UInt8.ofNat (k + 0x80) :: UInt8.ofNat (l + 0x80) :: rest) =
      (decodeUtf8From (position + 4) none rest).map
        (Char.ofNat (((m * 64 + n) * 64 + k) * 64 + l) :: ·) := by
  have hbottom : (if m = 0 then 0x90 else 0x80 : UInt8).toNat ≤ n + 0x80 := by
    split <;> simp
    omega
  have htop : n + 0x80 ≤ (if m = 4 then 0x8f else 0xbf : UInt8).toNat := by
    split <;> (simp; omega)
  rw [decodeUtf8From_opened (opened?_four hm), decodeUtf8From_tail hn hbottom htop,
    if_neg (by simp)]
  exact decodeUtf8From_lastTwo hk hl

/-- The bytes of a character are read as this character. -/
theorem decodeUtf8From_utf8EncodeChar (c : Char) (position : Nat) (rest : List UInt8) :
    ∃ next, decodeUtf8From position none (String.utf8EncodeChar c ++ rest) =
      (decodeUtf8From next none rest).map (c :: ·) := by
  have hvalid : c.val.toNat < 0xd800 ∨ 0xdfff < c.val.toNat ∧ c.val.toNat < 0x110000 := c.valid
  have hchar : Char.ofNat c.val.toNat = c := Char.ofNat_toNat c
  unfold String.utf8EncodeChar
  dsimp only
  generalize c.val.toNat = v at hvalid hchar ⊢
  split
  · rename_i hone
    have hbyte : (UInt8.ofNat v).toNat = v := toNat_ofNat_byte (by omega)
    have hlow : UInt8.ofNat v < 0x80 := by
      rw [UInt8.lt_iff_toNat_lt, hbyte]
      exact Nat.lt_of_le_of_lt hone (by decide)
    rw [List.singleton_append, decodeUtf8From, if_pos hlow, hbyte, hchar]
    exact ⟨_, rfl⟩
  · split
    · have hvalue : v / 64 % 32 * 64 + v % 64 = v := by omega
      have hread := decodeUtf8From_two position rest
        (show 2 ≤ v / 64 % 32 by omega) (by omega) (show v % 64 < 64 by omega)
      rw [hvalue, hchar] at hread
      exact ⟨_, hread⟩
    · split
      · have hvalue : (v / 4096 % 16 * 64 + v / 64 % 64) * 64 + v % 64 = v := by omega
        have hread := decodeUtf8From_three position rest
          (show v / 4096 % 16 < 16 by omega) (show v / 64 % 64 < 64 by omega)
          (show v % 64 < 64 by omega) (by omega) (by omega)
        rw [hvalue, hchar] at hread
        exact ⟨_, hread⟩
      · have hvalue : ((v / 262144 % 8 * 64 + v / 4096 % 64) * 64 + v / 64 % 64) * 64 + v % 64 =
            v := by omega
        have hread := decodeUtf8From_four position rest
          (show v / 262144 % 8 < 5 by omega) (show v / 4096 % 64 < 64 by omega)
          (show v / 64 % 64 < 64 by omega) (show v % 64 < 64 by omega) (by omega) (by omega)
        rw [hvalue, hchar] at hread
        exact ⟨_, hread⟩

theorem decodeUtf8From_encodeUtf8 (cs : List Char) (position : Nat) :
    decodeUtf8From position none (encodeUtf8 cs) = .ok cs := by
  induction cs generalizing position with
  | nil => rfl
  | cons c more ih =>
    obtain ⟨next, hnext⟩ := decodeUtf8From_utf8EncodeChar c position (encodeUtf8 more)
    rw [encodeUtf8, List.flatMap_cons, ← encodeUtf8, hnext, ih]
    rfl

/-- A text is read from its own bytes. -/
theorem decodeUtf8_encodeUtf8 (cs : List Char) : decodeUtf8 (encodeUtf8 cs) = .ok cs :=
  decodeUtf8From_encodeUtf8 cs 0

end SymbolExport.Text
