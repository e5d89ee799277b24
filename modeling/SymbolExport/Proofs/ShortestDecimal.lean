import Mathlib
import SymbolExport.Number.Shortest

/-!
The shortest numeral of a number other than zero has digits other than zero. The search for it
starts below ten times the number and goes down to a grid that is finer than the number.
-/
namespace SymbolExport.Number

theorem roundingInterval_pos {significand : Nat} (h : significand ≠ 0) (exponent : Int) :
    let r := roundingInterval significand exponent
    0 < r.low ∧ 0 < r.value ∧ 0 < r.den := by
  have hup : 0 < if exponent ≥ 2 then Nat.pow 2 (exponent - 2).toNat else 1 := by
    split
    · exact Nat.two_pow_pos _
    · omega
  have hbelow :
      (if significand = Nat.pow 2 52 ∧ exponent > Binary64.minExponent then 1 else 2) ≤ 2 := by
    split <;> omega
  refine ⟨Nat.mul_pos (by omega) hup, Nat.mul_pos (by omega) hup, ?_⟩
  simp only [roundingInterval]
  split
  · omega
  · exact Nat.two_pow_pos _

namespace RoundingInterval

variable {r : RoundingInterval} {k : Int} {c : Nat}

theorem holds_zero (h : 0 < r.low) (k : Int) : r.holds 0 k = false := by
  have hscale : 0 < r.low * if k ≥ 0 then 1 else Nat.pow 10 (-k).toNat := by
    refine Nat.mul_pos h ?_
    split
    · omega
    · exact Nat.pow_pos (by omega)
  simp only [holds, Nat.zero_mul, ite_self]
  generalize r.low * _ = low at hscale ⊢
  split <;>
    rw [Bool.and_eq_false_iff, decide_eq_false_iff_not] <;>
    omega

theorem nearest?_ne_zero (h : 0 < r.low) (hc : r.nearest? k = some c) : c ≠ 0 := by
  have hzero := holds_zero h k
  rintro rfl
  unfold nearest? at hc
  grind

/-- The search ends at a grid that has a hit, or at one that is fine enough. -/
theorem search_ne_zero (hlow : 0 < r.low) (hden : 0 < r.den) {fuel : Nat}
    (h : r.den ≤ r.value * 10 ^ (fuel - k).toNat) : (r.search fuel k).1 ≠ 0 := by
  induction fuel generalizing k with
  | zero =>
    have hk : (((0 : Nat) : Int) - k).toNat = (-k).toNat := by omega
    rw [hk] at h
    exact Nat.pos_iff_ne_zero.mp (Nat.div_pos h hden)
  | succ fuel ih =>
    unfold search
    split
    · rename_i c hc
      exact nearest?_ne_zero hlow hc
    · have hk : ((fuel : Int) - (k - 1)).toNat = (((fuel + 1 : Nat) : Int) - k).toNat := by omega
      exact ih (by rw [hk]; exact h)

/-- The grid at which the search may end is finer than the number. -/
theorem den_le_of_leadingExponent (hv : 0 < r.value) :
    r.den ≤ r.value * 10 ^ (((24 : Nat) : Int) - leadingExponent r).toNat := by
  unfold leadingExponent
  split
  · rename_i h
    exact Nat.le_trans h (Nat.le_mul_of_pos_right _ (Nat.pow_pos (by omega)))
  · generalize hlength : (Nat.toDigits 10 (r.den / r.value)).length = length
    have hpos : 0 < length := hlength ▸ Nat.length_toDigits_pos
    have hquotient : r.den / r.value < 10 ^ length :=
      (Nat.length_toDigits_le_iff (by omega) hpos).mp (by omega)
    have hpower : 10 ^ length ≤ 10 ^ (((24 : Nat) : Int) - (1 - (length : Int) + 1)).toNat :=
      Nat.pow_le_pow_right (by omega) (by omega)
    calc r.den ≤ r.value * 10 ^ length := by
          rw [Nat.div_lt_iff_lt_mul hv, Nat.mul_comm] at hquotient
          omega
      _ ≤ _ := Nat.mul_le_mul_left _ hpower

end RoundingInterval

theorem dropTrailingZeros_ne_zero {c : Nat} (h : c ≠ 0) (fuel : Nat) (k : Int) :
    (dropTrailingZeros fuel c k).1 ≠ 0 := by
  induction fuel generalizing c k with
  | zero => exact h
  | succ fuel ih =>
    unfold dropTrailingZeros
    split
    · exact ih (by omega) _
    · exact h

theorem shortestDecimal_ne_zero {significand : Nat} (h : significand ≠ 0) (exponent : Int) :
    (shortestDecimal significand exponent).1 ≠ 0 := by
  obtain ⟨hlow, hvalue, hden⟩ := roundingInterval_pos h exponent
  simp only [shortestDecimal, h, if_false]
  exact dropTrailingZeros_ne_zero
    (RoundingInterval.search_ne_zero hlow hden (RoundingInterval.den_le_of_leadingExponent hvalue))
    _ _

end SymbolExport.Number
