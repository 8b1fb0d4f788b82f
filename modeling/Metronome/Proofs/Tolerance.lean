/-
Module: Metronome.Proofs.Tolerance
Purpose: A number that is taken for a whole one is near to it, and equal to it if it is whole and
  not too large.
Trusted boundary: none
Main exports:
  Number.spacing_relative, TimeGrid.seconds_near, Number.mul_near, Number.tolerated_near,
  Number.tolerated_of_near, Number.closest_eq
-/
import Mathlib
import Metronome.Proofs.Value
import Metronome.TimeGrid

/-!
Periods and rates are taken for whole numbers if they differ from one by a millionth of it at most.
The comparison is one of doubles, but each operation in it is off by less than a part in `2 ^ 49`,
so that it says the same of the exact numbers, with a slightly larger bound.
-/

namespace Metronome

namespace Number

variable {n : Nat} {p q r : ℚ} {x y : Float}

/-! ### Relative errors -/

/-- The distance between doubles is a part of a number that is not too small. -/
theorem spacing_relative (low : 2 ^ (-1025 : Int) ≤ q) : spacing q ≤ q / 2 ^ 49 := by
  have pos := (two_zpow_pos (-1025)).trans_le low
  apply max_le
  · exact div_le_div_of_nonneg_left pos.le (by norm_num) (by norm_num)
  · have split : (2 : ℚ) ^ (-1074 : Int) = 2 ^ (-1025 : Int) / 2 ^ 49 := by
      rw [show (-1074 : Int) = -1025 - 49 by norm_num, zpow_sub₀ (by norm_num)]
      norm_num
    rw [split]
    exact div_le_div_of_nonneg_right low (by norm_num)

/-- The largest double is finite. -/
theorem Nonnegative.value_lt (nonneg : Nonnegative x) : value x < 2 ^ (1024 : Int) := by
  obtain ⟨m, e, canonical, bounded, unpacked⟩ := nonneg
  rw [value_of_unpack unpacked]
  exact scaled_lt canonical bounded

/-- What is divided by a double does not become too small, if it was not small before. -/
theorem half_div_low {dividend : ℚ} (half : 1 / 2 ≤ dividend) (nonneg : Nonnegative x)
    (pos : 0 < value x) : 2 ^ (-1025 : Int) ≤ dividend / value x := by
  rw [le_div_iff₀ pos]
  calc (2 : ℚ) ^ (-1025 : Int) * value x ≤ 2 ^ (-1025 : Int) * 2 ^ (1024 : Int) :=
        mul_le_mul_of_nonneg_left nonneg.value_lt.le (two_zpow_pos _).le
    _ = 1 / 2 := by
        rw [← zpow_add₀ (by norm_num)]
        norm_num
    _ ≤ dividend := half

/-- A product whose first factor is close to a number is close to the product with the number. -/
theorem mul_near (first : Nonnegative x) (near : |value x - q| ≤ q / 2 ^ 47)
    (second : Nonnegative y) :
    (x * y).toModel.unpack = .infinity .positive ∨
      Nonnegative (x * y) ∧
        |value (x * y) - q * value y| ≤ q * value y / 2 ^ 46 + 1 / 2 ^ 200 := by
  cases mul_roundsTo first second with
  | infinite unpacked large => exact Or.inl unpacked
  | finite nonneg rounded =>
      refine Or.inr ⟨nonneg, ?_⟩
      have bound := spacing_le (mul_nonneg first.value_nonneg second.value_nonneg)
      have least := least_le
      obtain ⟨low, high⟩ := abs_le.1 near
      have lowest := mul_le_mul_of_nonneg_right low second.value_nonneg
      have highest := mul_le_mul_of_nonneg_right high second.value_nonneg
      obtain ⟨below, above⟩ := abs_le.1 (rounded.trans bound)
      have scaled : q / 2 ^ 47 * value y = q * value y / 2 ^ 47 := by ring
      rw [neg_mul, sub_mul, scaled] at lowest
      rw [sub_mul, scaled] at highest
      generalize q * value y = exact at lowest highest ⊢
      generalize value x * value y = product at lowest highest below above
      rw [abs_le]
      constructor <;> linarith

/-! ### Whole numbers -/

theorem unpack_millionth :
    (1e-6 : Float).toModel.unpack = float .positive 4722366482869645 (-72) :=
  rfl

theorem nonnegative_millionth : Nonnegative 1e-6 :=
  ⟨4722366482869645, -72, ⟨by decide, by decide, Or.inr (by decide)⟩, by decide, unpack_millionth⟩

theorem value_millionth :
    999999 / 1000000000000 ≤ value 1e-6 ∧ value 1e-6 ≤ 10000 / 9999999999 := by
  rw [value_of_unpack unpack_millionth, scaled]
  norm_num

/-- The tolerance of a number and its distance from the nearest whole number, as they are computed,
are close to what they stand for. -/
theorem tolerance_roundsTo (nonneg : Nonnegative x) :
    RoundsTo (value 1e-6 * max 1 (closest (value x) : ℚ)) (1e-6 * atLeast 1 (nearest x)) ∧
      RoundsTo |value x - closest (value x)| (x - nearest x).abs := by
  obtain ⟨whole, wholeValue⟩ := nearest_of_nonnegative nonneg
  obtain ⟨bounded, boundedValue⟩ := atLeast_one whole
  rw [← wholeValue, ← boundedValue]
  exact ⟨mul_roundsTo nonnegative_millionth bounded, abs_sub_roundsTo nonneg whole⟩

/-- The tolerance of a number is finite, and close to a millionth of the nearest whole number. -/
theorem tolerance_near (nonneg : Nonnegative x) (small : closest (value x) ≤ 2 ^ 64) :
    Nonnegative (1e-6 * atLeast 1 (nearest x)) ∧
      max 1 (closest (value x) : ℚ) / 1000002 + 1 / 2 ^ 100 ≤
        value (1e-6 * atLeast 1 (nearest x)) ∧
      value (1e-6 * atLeast 1 (nearest x)) + 1 / 2 ^ 100 ≤
        100 / 99999999 * max 1 (closest (value x) : ℚ) := by
  obtain ⟨low, high⟩ := value_millionth
  have most : (closest (value x) : ℚ) ≤ 2 ^ 64 := by exact_mod_cast small
  have tolerance := (tolerance_roundsTo nonneg).1
  generalize (closest (value x) : ℚ) = number at *
  have one : 1 ≤ max 1 number := le_max_left ..
  have bound : max 1 number ≤ 2 ^ 64 := max_le (by norm_num) most
  have lowest := mul_le_mul_of_nonneg_right low (zero_le_one.trans one)
  have highest := mul_le_mul_of_nonneg_right high (zero_le_one.trans one)
  cases tolerance with
  | infinite _ large => linarith
  | finite finite near =>
      have leastSmall := least_le
      have exact := spacing_le (mul_nonneg nonnegative_millionth.value_nonneg
        (zero_le_one.trans one))
      obtain ⟨below, above⟩ := abs_le.1 (near.trans exact)
      generalize (2 : ℚ) ^ (-1074 : Int) = least at *
      exact ⟨finite, by linarith, by linarith⟩

/-- A number that is not refused because of its distance from a whole number is near to one. -/
theorem tolerated_near (nonneg : Nonnegative x) (small : closest (value x) ≤ 2 ^ 64)
    (tolerated : ¬ 1e-6 * atLeast 1 (nearest x) < (x - nearest x).abs) :
    |value x - closest (value x)| ≤ 10 / 9999999 * max 1 (closest (value x) : ℚ) := by
  obtain ⟨finite, -, high⟩ := tolerance_near nonneg small
  cases (tolerance_roundsTo nonneg).2 with
  | infinite unpacked _ => exact absurd (lt_infinity finite unpacked) tolerated
  | finite distanceNonneg near =>
      rw [lt_iff_value finite distanceNonneg, not_lt] at tolerated
      have leastSmall := least_le
      have below := (abs_le.1 (near.trans (spacing_le (abs_nonneg _)))).1
      have one : 1 ≤ max 1 (closest (value x) : ℚ) := le_max_left ..
      generalize |value x - closest (value x)| = distance at *
      generalize (2 : ℚ) ^ (-1074 : Int) = least at *
      linarith

/-- A number that is near enough to a whole one is not refused because of its distance from it. -/
theorem tolerated_of_near (nonneg : Nonnegative x) (small : closest (value x) ≤ 2 ^ 64)
    (near : |value x - closest (value x)| ≤ max 1 (closest (value x) : ℚ) / 1000003) :
    ¬ 1e-6 * atLeast 1 (nearest x) < (x - nearest x).abs := by
  obtain ⟨finite, low, -⟩ := tolerance_near nonneg small
  have most : (closest (value x) : ℚ) ≤ 2 ^ 64 := by exact_mod_cast small
  have bound : max 1 (closest (value x) : ℚ) ≤ 2 ^ 64 := max_le (by norm_num) most
  have one : 1 ≤ max 1 (closest (value x) : ℚ) := le_max_left ..
  cases (tolerance_roundsTo nonneg).2 with
  | infinite _ large => linarith
  | finite distanceNonneg rounded =>
      rw [lt_iff_value finite distanceNonneg, not_lt]
      have leastSmall := least_le
      have above := (abs_le.1 (rounded.trans (spacing_le (abs_nonneg _)))).2
      generalize |value x - closest (value x)| = distance at *
      generalize (2 : ℚ) ^ (-1074 : Int) = least at *
      linarith

/-- What is near to a number that is close to another one is near to the other one. -/
theorem near_trans (whole : |p - r| ≤ 10 / 9999999 * max 1 r)
    (near : |p - q| ≤ q / 2 ^ 46 + 1 / 2 ^ 200) : |r - q| ≤ max 1 r / 999999 := by
  have one : 1 ≤ max 1 r := le_max_left ..
  have least : r ≤ max 1 r := le_max_right ..
  obtain ⟨below, above⟩ := abs_le.1 whole
  obtain ⟨low, high⟩ := abs_le.1 near
  generalize max 1 r = bound at *
  rw [abs_le]
  constructor <;> linarith

/-- A number that is close to a whole one which is not too large has it as the closest. -/
theorem closest_eq (nonneg : 0 ≤ q) (near : |q - n| ≤ n / 2 ^ 46 + 1 / 2 ^ 200)
    (small : closest q ≤ 2 ^ 34) : closest q = n := by
  have bound : (closest q : ℚ) ≤ 2 ^ 34 := by exact_mod_cast small
  obtain ⟨below, above⟩ := abs_le.1 (closest_near nonneg)
  obtain ⟨low, high⟩ := abs_le.1 near
  have count : (0 : ℚ) ≤ n := Nat.cast_nonneg n
  have apart : |((closest q : Int) - n : Int)| < 1 := by
    have distance : |(closest q : ℚ) - n| < 1 := by
      rw [abs_lt]
      constructor <;> linarith
    exact_mod_cast distance
  have equal := Int.abs_lt_one_iff.1 apart
  omega

end Number

/-- The seconds of a distance are close to the exact ones. -/
theorem TimeGrid.seconds_near {timeBase : Float} (base : Number.Nonnegative timeBase)
    (one : 1 ≤ Number.value timeBase) {distance : Nat} (pos : 1 ≤ distance)
    (word : distance < 2 ^ 64) :
    Number.Nonnegative (seconds distance timeBase) ∧
      |Number.value (seconds distance timeBase) - distance / Number.value timeBase| ≤
        distance / Number.value timeBase / 2 ^ 47 := by
  obtain ⟨nonneg, near⟩ := Number.ofWord_near pos word
  have basePos := zero_lt_one.trans_le one
  have positions : (1 : ℚ) ≤ distance := by exact_mod_cast pos
  have most : (distance : ℚ) ≤ 2 ^ 64 := by exact_mod_cast word.le
  have least : (2 : ℚ) ^ (-1025 : Int) ≤ 1 :=
    zpow_le_one_of_nonpos₀ (by norm_num) (by norm_num)
  obtain ⟨low, high⟩ := abs_le.1
    (near.trans (Number.spacing_relative (least.trans positions)))
  have half : 1 / 2 ≤ Number.value (Number.ofWord distance) := by linarith
  have quotient := Number.div_roundsTo nonneg base basePos
  have quotientLow := Number.half_div_low half base basePos
  rw [← seconds] at quotient
  generalize Number.value (Number.ofWord distance) = moved at *
  generalize Number.value timeBase = base at *
  cases quotient with
  | infinite _ large =>
      have bounded : moved / base ≤ moved := div_le_self (by linarith) one
      linarith
  | finite quotientNonneg quotientNear =>
      refine ⟨quotientNonneg, ?_⟩
      obtain ⟨below, above⟩ := abs_le.1
        (quotientNear.trans (Number.spacing_relative quotientLow))
      have lower := div_le_div_of_nonneg_right low basePos.le
      have upper := div_le_div_of_nonneg_right high basePos.le
      have exact : 0 ≤ distance / base := by positivity
      rw [sub_div, neg_div, div_right_comm] at lower
      rw [sub_div, div_right_comm] at upper
      generalize (distance : ℚ) / base = target at *
      generalize moved / base = result at *
      rw [abs_le]
      constructor <;> linarith

end Metronome
