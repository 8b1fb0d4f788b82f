/-
Module: Metronome.Proofs.Fraction
Purpose: The fraction of a domain that has passed, as it is computed: it grows, and it is one from
  the end of the domain on.
Trusted boundary: none
Main exports:
  Number.fraction_spec, Number.fraction_mono, Number.fraction_eq_one, Number.clampUnit_fraction
-/
import Mathlib
import Metronome.Proofs.Arithmetic

/-!
The fraction is the quotient of two words, cut off at the ends of the unit interval.  Each word and
the quotient are rounded to the nearest double, and cutting off rounds nothing.  Rounding is
monotone and keeps one, so a position at the end or after it has a quotient that is not below one.
-/

namespace Metronome.Number

variable {x : Float} {passed length : Nat}

/-- The unit interval cuts numbers off at one. -/
theorem clampUnit_of_nonnegative (nonneg : Nonnegative x) :
    Nonnegative (clampUnit x) ∧ value (clampUnit x) = min 1 (value x) := by
  have above : ¬ x < 0 := by
    rw [lt_iff_value nonneg nonnegative_zero, value_zero, not_lt]
    exact nonneg.value_nonneg
  have order := lt_iff_value nonnegative_one nonneg
  rw [value_one] at order
  rw [clampUnit, if_neg above]
  split
  · rename_i past
    rw [value_one, min_eq_left (order.1 past).le]
    exact ⟨nonnegative_one, rfl⟩
  · rename_i inside
    rw [min_eq_right (not_lt.1 fun past => inside (order.2 past))]
    exact ⟨nonneg, rfl⟩

/-- A word is a double that is not large. -/
theorem nearestDouble_word_le (word : passed < 2 ^ 64) : nearestDouble passed ≤ 2 ^ 64 := by
  have bound : nearestDouble (2 ^ 64) = 2 ^ 64 := by
    have kept := nearestDouble_eq_self (k := 1) (e := 64) (by norm_num) (by norm_num)
    norm_num at kept ⊢
    exact kept
  rw [← bound]
  exact nearestDouble_mono (by exact_mod_cast word.le)

/-- The fraction of a domain that has passed, as it is computed. -/
theorem fraction_spec (positive : 1 ≤ length) (lengthWord : length < 2 ^ 64)
    (passedWord : passed < 2 ^ 64) :
    Nonnegative (clampUnit (ofWord passed / ofWord length)) ∧
      value (clampUnit (ofWord passed / ofWord length)) =
        min 1 (nearestDouble (nearestDouble passed / nearestDouble length)) := by
  obtain ⟨dividend, dividendValue⟩ := ofWord_nearest passedWord
  obtain ⟨divisor, divisorValue⟩ := ofWord_nearest lengthWord
  have one := one_le_nearestDouble positive
  have pos : 0 < value (ofWord length) := by
    rw [divisorValue]
    exact zero_lt_one.trans_le one
  have result := div_result dividend divisor pos
  have rounds := div_roundsTo dividend divisor pos
  rw [dividendValue, divisorValue] at result rounds
  have quotient : Nonnegative (ofWord passed / ofWord length) := by
    cases rounds with
    | finite nonneg _ => exact nonneg
    | infinite _ large =>
        have least := div_le_self (nearestDouble_nonneg (Nat.cast_nonneg passed)) one
        have most := nearestDouble_word_le passedWord
        linarith
  obtain ⟨nonneg, same⟩ := clampUnit_of_nonnegative quotient
  rw [result.value_eq quotient.isFinite] at same
  exact ⟨nonneg, same⟩

/-- A later position has passed no smaller a fraction. -/
theorem fraction_mono {later : Nat} (positive : 1 ≤ length) (lengthWord : length < 2 ^ 64)
    (laterWord : later < 2 ^ 64) (le : passed ≤ later) :
    value (clampUnit (ofWord passed / ofWord length)) ≤
      value (clampUnit (ofWord later / ofWord length)) := by
  have one := one_le_nearestDouble positive
  rw [(fraction_spec positive lengthWord (le.trans_lt laterWord)).2,
    (fraction_spec positive lengthWord laterWord).2]
  refine min_le_min_left _ (nearestDouble_mono ?_)
  refine div_le_div_of_nonneg_right (nearestDouble_mono ?_) (zero_le_one.trans one)
  exact_mod_cast le

/-- From the end of the domain on the value of the fraction is one. -/
theorem fraction_eq_one (positive : 1 ≤ length) (passedWord : passed < 2 ^ 64)
    (past : length ≤ passed) : value (clampUnit (ofWord passed / ofWord length)) = 1 := by
  have one := one_le_nearestDouble positive
  have reached : 1 ≤ nearestDouble passed / nearestDouble length := by
    rw [one_le_div (zero_lt_one.trans_le one)]
    exact nearestDouble_mono (by exact_mod_cast past)
  rw [(fraction_spec positive (past.trans_lt passedWord) passedWord).2, min_eq_left]
  rw [← nearestDouble_one]
  exact nearestDouble_mono reached

/-- From the end of the domain on the fraction is one, as a double. -/
theorem clampUnit_fraction (positive : 1 ≤ length) (passedWord : passed < 2 ^ 64)
    (past : length ≤ passed) : clampUnit (ofWord passed / ofWord length) = 1 := by
  have nonneg := (fraction_spec positive (past.trans_lt passedWord) passedWord).1
  refine eq_one_of_beq ((beq_iff_value nonneg.isFinite nonnegative_one.isFinite).2 ?_)
  rw [fraction_eq_one positive passedWord past, value_one]

end Metronome.Number
