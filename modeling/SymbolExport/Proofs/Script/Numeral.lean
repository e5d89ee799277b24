import SymbolExport.Proofs.Script.Reading
import SymbolExport.Proofs.ShortestDecimal

/-!
Numbers read back. The numeral of an integer is read as that integer, and the text of a floating
point number is one of the numerals, or one of the words, that a literal can have.
-/
namespace SymbolExport

open SymbolExport.Number SymbolExport.Reading

/-! The digits of a number. -/

theorem isDigits_iff {cs : List Char} : isDigits cs ↔ cs ≠ [] ∧ ∀ c ∈ cs, c.isDigit := by
  simp [isDigits]

theorem natText_ne_nil (n : Nat) : natText n ≠ [] :=
  Nat.toDigits_ne_nil

theorem isDigit_of_mem_natText {n : Nat} {c : Char} (h : c ∈ natText n) : c.isDigit :=
  Nat.isDigit_of_mem_toDigits (by omega) (by omega) h

theorem isDigits_natText (n : Nat) : isDigits (natText n) :=
  isDigits_iff.mpr ⟨natText_ne_nil n, fun _ => isDigit_of_mem_natText⟩

theorem head?_natText {n : Nat} (h : n ≠ 0) : (natText n).head? ≠ some '0' := by
  induction n using Nat.strongRecOn with
  | ind n ih =>
    unfold natText at ih ⊢
    by_cases hn : n < 10
    · have hall : ∀ d < 10, d ≠ 0 → [Nat.digitChar d].head? ≠ some '0' := by decide
      rw [Nat.toDigits_of_lt_base hn]
      exact hall n hn h
    · rw [Nat.toDigits_of_base_le (by omega) (by omega),
        List.head?_append, Option.or_of_isSome (by simp [Nat.toDigits_ne_nil])]
      exact ih (n / 10) (by omega) (by omega)

theorem isWhole_of_head? {cs : List Char} (h : isDigits cs) (hhead : cs.head? ≠ some '0') :
    isWhole cs := by
  simp [isWhole, h, hhead]

theorem isWhole_natText (n : Nat) : isWhole (natText n) := by
  by_cases h : n = 0
  · subst h
    rfl
  · exact isWhole_of_head? (isDigits_natText n) (head?_natText h)

theorem isWhole_ne_nil {cs : List Char} (h : isWhole cs) : cs ≠ [] := by
  rintro rfl
  cases h

theorem isDigit_of_isWhole {cs : List Char} (h : isWhole cs) : ∀ c ∈ cs, c.isDigit := by
  rw [isWhole, Bool.and_eq_true, isDigits_iff] at h
  exact h.1.2

theorem not_isDigit_head?_exponent {cs : List Char} (h : isExponent cs) :
    ∀ c ∈ cs.head?, c.isDigit = false := by
  intro c hc
  cases cs with
  | nil => cases hc
  | cons first rest =>
    obtain rfl : first = c := by simpa using hc
    have hmark : first = 'e' ∨ first = 'E' := by
      unfold isExponent at h
      grind
    rcases hmark with rfl | rfl <;> rfl

theorem not_isDigit_head?_tail {tail : List Char} (h : isNumberTail tail) :
    ∀ c ∈ tail.head?, c.isDigit = false := by
  unfold isNumberTail at h
  split at h
  · rintro c ⟨⟩
    rfl
  · exact not_isDigit_head?_exponent h

/-- The sign of a number is read apart from its digits. -/
theorem number?_signed {whole tail : List Char} (hw : isWhole whole) (ht : isNumberTail tail)
    (isNegative : Bool) :
    number? (if isNegative then '-' :: (whole ++ tail) else whole ++ tail) =
      if tail = [] then
        let n := Nat.ofDigitChars 10 whole 0
        some (.int (if isNegative then -n else n))
      else some (.float (if isNegative then '-' :: (whole ++ tail) else whole ++ tail)) := by
  obtain ⟨htake, hdrop⟩ := span_append (isDigit_of_isWhole hw) (not_isDigit_head?_tail ht)
  have hplain : (whole ++ tail).head? ≠ some '-' := by
    obtain ⟨c, more, rfl⟩ := List.exists_cons_of_ne_nil (isWhole_ne_nil hw)
    rintro h
    have hc := isDigit_of_isWhole hw c List.mem_cons_self
    simp only [List.cons_append, List.head?_cons, Option.some.injEq] at h
    subst h
    cases hc
  generalize whole ++ tail = cs at htake hdrop hplain ⊢
  cases isNegative with
  | true => simp [number?, htake, hdrop, hw, ht]
  | false => simp [number?, hplain, htake, hdrop, hw, ht]

theorem number?_intText (i : Int) : number? (intText i) = some (.int i) := by
  have h := number?_signed (isWhole_natText i.natAbs) (rfl : isNumberTail []) (decide (i < 0))
  simp only [List.append_nil, if_true, natText, Nat.ofDigitChars_ten_toDigits,
    decide_eq_true_eq] at h
  rw [intText, natText, h]
  split
  · rw [show -(i.natAbs : Int) = i by omega]
  · rw [show (i.natAbs : Int) = i by omega]

/-! Floating point numbers. -/

/-- The text of a number without its sign, one that is not written as an integer. -/
def IsMagnitude (cs : List Char) : Prop :=
  ∃ whole tail, cs = whole ++ tail ∧ isWhole whole ∧ isNumberTail tail ∧ tail ≠ []

theorem number?_magnitude {cs : List Char} (h : IsMagnitude cs) (isNegative : Bool) :
    number? (if isNegative then '-' :: cs else cs) =
      some (.float (if isNegative then '-' :: cs else cs)) := by
  obtain ⟨whole, tail, rfl, hw, ht, hne⟩ := h
  rw [number?_signed hw ht, if_neg hne]

theorem isDigits_append {a b : List Char} (ha : ∀ c ∈ a, c.isDigit) (hb : isDigits b) :
    isDigits (a ++ b) := by
  rw [isDigits_iff] at hb ⊢
  exact ⟨List.append_ne_nil_of_right_ne_nil a hb.1, List.forall_mem_append.mpr ⟨ha, hb.2⟩⟩

/-- A fraction, with an exponent or without one. -/
theorem isNumberTail_fraction {fraction exponent : List Char} (hf : isDigits fraction)
    (he : isExponent exponent) : isNumberTail ('.' :: (fraction ++ exponent)) := by
  obtain ⟨htake, hdrop⟩ := span_append (isDigits_iff.mp hf).2 (not_isDigit_head?_exponent he)
  simp [isNumberTail, htake, hdrop, hf, he]

theorem isWhole_singleton {d : Char} (h : d.isDigit) : isWhole [d] := by
  simp [isWhole, isDigits, h]

theorem isExponent_scientific (isNegative : Bool) (n : Nat) :
    isExponent ('e' :: (if isNegative then '-' else '+') ::
      (if (natText n).length < 2 then '0' :: natText n else natText n)) := by
  have hpadded : isDigits (if (natText n).length < 2 then '0' :: natText n else natText n) := by
    split
    · exact isDigits_append (a := ['0']) (by simp) (isDigits_natText n)
    · exact isDigits_natText n
  cases isNegative <;> exact hpadded

theorem isMagnitude_scientificText {digits : List Char} (hd : isDigits digits) (exponent : Int) :
    IsMagnitude (scientificText digits exponent) := by
  have he := isExponent_scientific (decide (exponent < 0)) exponent.natAbs
  simp only [decide_eq_true_eq] at he
  simp only [scientificText]
  generalize (if exponent < 0 then '-' else '+') :: _ = power at he ⊢
  match digits, hd with
  | [d], hd =>
    have hdigit : d.isDigit := by simpa [isDigits] using hd
    exact ⟨[d], 'e' :: power, rfl, isWhole_singleton hdigit, he, by simp⟩
  | d :: first :: more, hd =>
    simp only [isDigits, List.all_cons, Bool.and_eq_true] at hd
    have hfraction : isDigits (first :: more) := by simpa [isDigits] using hd.2.2
    exact ⟨[d], '.' :: (first :: more ++ 'e' :: power), rfl, isWhole_singleton hd.2.1,
      isNumberTail_fraction hfraction he, by simp⟩

theorem isDigit_replicate_zero (n : Nat) : ∀ c ∈ List.replicate n '0', c.isDigit := by
  simp +contextual [List.mem_replicate]

theorem isMagnitude_point {whole fraction : List Char} (hw : isWhole whole)
    (hf : isDigits fraction) : IsMagnitude (whole ++ '.' :: fraction) := by
  have htail := isNumberTail_fraction hf (rfl : isExponent [])
  rw [List.append_nil] at htail
  exact ⟨whole, _, rfl, hw, htail, by simp⟩

/-- The digits before the point, with zeros where there are too few. -/
theorem isWhole_take {digits : List Char} (hd : isDigits digits) (hhead : digits.head? ≠ some '0')
    {n : Nat} (hn : n ≠ 0) (zeros : Nat) :
    isWhole (digits.take n ++ List.replicate zeros '0') := by
  obtain ⟨hne, hall⟩ := isDigits_iff.mp hd
  have htake : digits.take n ≠ [] := by simp [hn, hne]
  refine isWhole_of_head? (isDigits_iff.mpr ⟨by simp [hn, hne], ?_⟩) ?_
  · exact List.forall_mem_append.mpr
      ⟨fun c hc => hall c (List.mem_of_mem_take hc), isDigit_replicate_zero zeros⟩
  · rwa [List.head?_append_of_ne_nil _ htake, List.head?_take, if_neg hn]

/-- The digits behind the point, or a zero if there are none. -/
theorem isDigits_drop {digits : List Char} (hd : isDigits digits) (n : Nat) :
    isDigits (if (digits.drop n).isEmpty then ['0'] else digits.drop n) := by
  split
  · rfl
  · rename_i hsome
    refine isDigits_iff.mpr ⟨by simpa using hsome, fun c hc => ?_⟩
    exact (isDigits_iff.mp hd).2 c (List.mem_of_mem_drop hc)

theorem isMagnitude_positionalText {digits : List Char} (hd : isDigits digits)
    (hhead : digits.head? ≠ some '0') (point : Int) :
    IsMagnitude (positionalText digits point) := by
  unfold positionalText
  split
  · exact isMagnitude_point (rfl : isWhole ['0'])
      (isDigits_append (isDigit_replicate_zero (-point).toNat) hd)
  · exact isMagnitude_point (isWhole_take hd hhead (by omega) _) (isDigits_drop hd _)

theorem isMagnitude_magnitudeText (significand : Nat) (exponent : Int) :
    IsMagnitude (magnitudeText significand exponent) := by
  unfold magnitudeText
  dsimp only
  split
  · exact ⟨['0'], ['.', '0'], rfl, rfl, rfl, by simp⟩
  · rename_i hzero
    split
    · exact isMagnitude_positionalText (isDigits_natText _)
        (head?_natText (shortestDecimal_ne_zero hzero exponent)) _
    · exact isMagnitude_scientificText (isDigits_natText _) _

/-! Words and numbers, told from each other. -/

theorem atom?_signed {whole : List Char} (hw : isWhole whole) (tail : List Char)
    (isNegative : Bool) :
    atom? (if isNegative then '-' :: (whole ++ tail) else whole ++ tail) =
      number? (if isNegative then '-' :: (whole ++ tail) else whole ++ tail) := by
  obtain ⟨d, more, rfl⟩ := List.exists_cons_of_ne_nil (isWhole_ne_nil hw)
  have hd := isDigit_of_isWhole hw d List.mem_cons_self
  have hne : ∀ c ∈ ['n', 't', 'f', 'N', 'I', '-'], d ≠ c := by
    rintro c hc rfl
    simp only [List.mem_cons, List.not_mem_nil, or_false] at hc
    rcases hc with rfl | rfl | rfl | rfl | rfl | rfl <;> cases hd
  simp only [List.mem_cons, List.not_mem_nil, or_false, forall_eq_or_imp, forall_eq] at hne
  cases isNegative <;> simp [atom?, numberWords, hne]

theorem atom?_intText (i : Int) : atom? (intText i) = some (.int i) := by
  have h := atom?_signed (isWhole_natText i.natAbs) [] (decide (i < 0))
  simp only [List.append_nil, decide_eq_true_eq] at h
  rw [← number?_intText i, intText, h]

theorem atom?_textWith (x : Binary64) :
    atom? (x.textWith scriptWords) = some (.float (x.textWith scriptWords)) := by
  cases x with
  | nan => rfl
  | infinite isNegative => cases isNegative <;> rfl
  | finite isNegative m e =>
    obtain ⟨whole, tail, htext, hw, -, -⟩ := isMagnitude_magnitudeText m e
    simp only [Binary64.textWith]
    rw [← number?_magnitude (isMagnitude_magnitudeText m e) isNegative, htext]
    exact atom?_signed hw _ isNegative

theorem isAtomChar_of_isDigit {c : Char} (h : c.isDigit) : isAtomChar c := by
  simp [isAtomChar, Char.isAlphanum, h]

theorem isAtomChar_intText {i : Int} {c : Char} (h : c ∈ intText i) : isAtomChar c := by
  unfold intText at h
  split at h
  · rcases List.mem_cons.mp h with rfl | h
    · rfl
    · exact isAtomChar_of_isDigit (isDigit_of_mem_natText h)
  · exact isAtomChar_of_isDigit (isDigit_of_mem_natText h)

theorem isAtomChar_of_mem_isDigits {digits : List Char} (h : isDigits digits) {c : Char}
    (hc : c ∈ digits) : isAtomChar c := by
  rw [isDigits_iff] at h
  exact isAtomChar_of_isDigit (h.2 c hc)

theorem isAtomChar_exponent {cs : List Char} (h : isExponent cs) {c : Char} (hc : c ∈ cs) :
    isAtomChar c := by
  have hmark : ∀ e : Char, e = 'e' ∨ e = 'E' → isAtomChar e := by
    rintro e (rfl | rfl) <;> rfl
  unfold isExponent at h
  split at h
  · cases hc
  all_goals
    simp only [Bool.and_eq_true, Bool.or_eq_true, decide_eq_true_eq] at h
    simp only [List.mem_cons] at hc
  · rcases hc with rfl | rfl | hc
    · exact hmark c h.1
    · rfl
    · exact isAtomChar_of_mem_isDigits h.2 hc
  · rcases hc with rfl | rfl | hc
    · exact hmark c h.1
    · rfl
    · exact isAtomChar_of_mem_isDigits h.2 hc
  · rcases hc with rfl | hc
    · exact hmark c h.1
    · exact isAtomChar_of_mem_isDigits h.2 hc

theorem isAtomChar_numberTail {tail : List Char} (h : isNumberTail tail) {c : Char}
    (hc : c ∈ tail) : isAtomChar c := by
  unfold isNumberTail at h
  split at h
  · rename_i rest
    rw [Bool.and_eq_true] at h
    rcases List.mem_cons.mp hc with rfl | hc
    · rfl
    rw [← List.takeWhile_append_dropWhile (p := Char.isDigit) (l := rest)] at hc
    rcases List.mem_append.mp hc with hc | hc
    · exact isAtomChar_of_mem_isDigits h.1 hc
    · exact isAtomChar_exponent h.2 hc
  · exact isAtomChar_exponent h hc

theorem isAtomChar_magnitude {cs : List Char} (h : IsMagnitude cs) {c : Char} (hc : c ∈ cs) :
    isAtomChar c := by
  obtain ⟨whole, tail, rfl, hw, ht, -⟩ := h
  rcases List.mem_append.mp hc with hc | hc
  · exact isAtomChar_of_isDigit (isDigit_of_isWhole hw c hc)
  · exact isAtomChar_numberTail ht hc

theorem isAtomChar_textWith {x : Binary64} {c : Char} (h : c ∈ x.textWith scriptWords) :
    isAtomChar c := by
  have hword : ∀ c ∈ "NaN".toList ++ '-' :: "Infinity".toList, isAtomChar c :=
    List.all_eq_true.mp (by decide)
  cases x with
  | nan => exact hword c (List.mem_append_left _ h)
  | infinite isNegative =>
    refine hword c (List.mem_append_right _ ?_)
    cases isNegative
    · exact List.mem_cons_of_mem _ h
    · exact h
  | finite isNegative m e =>
    have hm := isMagnitude_magnitudeText m e
    cases isNegative with
    | false => exact isAtomChar_magnitude hm h
    | true =>
      rcases List.mem_cons.mp h with rfl | h
      · rfl
      · exact isAtomChar_magnitude hm h

end SymbolExport
