/-
Module: Metronome.Proofs.Comparison
Purpose: What a comparison that a double passed says of the double: positions lie on the grid, and
  a duration that is not refused is positive.
Trusted boundary: none
Main exports:
  Number.toWord_le_last, Number.pos_of_not_nonpos, Number.eq_one_of_beq,
  TimeGrid.position_le_last
-/
import Metronome.Proofs.Normal
import Metronome.TimeGrid

/-!
The rules of the grid are stated by comparisons that a bad value has to pass: `last < rounded`
refuses a time, `timeout ≤ 0` a timeout.  A comparison with NaN is false either way, so what is left
when a value is not refused is read off its sign, mantissa and exponent.
-/

namespace Metronome.Number

open Float.Model (UnpackedFloat Format)
open Float.Model.UnpackedFloat

/-! ### The mantissa of a double -/

/-- The mantissa of a double has at most 53 bits. -/
theorem mantissa_lt_of_unpack {x : Float} {sign : Sign} {m : Nat} {e : Int} {pos : 0 < m}
    (finite : x.toModel.unpack = .finite sign m e pos) : m < 2 ^ 53 := by
  have fraction := (@unpackMantissa .binary64 x.toModel.toBits.toBitVec).isLt
  rw [Float.Model.unpack, unpack] at finite
  dsimp only at finite
  split at finite
  · split at finite <;> simp at finite
  · split at finite
    · split at finite
      · simp at finite
      · obtain ⟨-, rfl, -⟩ := UnpackedFloat.finite.inj finite
        exact Nat.lt_of_lt_of_le fraction (by decide)
    · obtain ⟨-, rfl, -⟩ := UnpackedFloat.finite.inj finite
      exact (1#1 ++ @unpackMantissa .binary64 x.toModel.toBits.toBitVec).isLt

/-- Without an exponent above zero the integer part is at most the mantissa. -/
theorem roundToInt_le {m : Nat} {e : Int} (small : e ≤ 0) : roundToInt .positive m e ≤ m := by
  have amount : (e - 0).toNat = 0 := by omega
  rw [roundToInt, decreaseExponent, amount]
  refine Int.ofNat_le.2 ?_
  rw [mantissa_shiftRight]
  exact Nat.div_le_self _ _

theorem roundToInt_one (m : Nat) : roundToInt .positive m 1 = 2 * m := by
  have shifted : m <<< 1 = 2 * m := by omega
  have result : roundToInt .positive m 1 = (m <<< 1 : Nat) := rfl
  rw [result, shifted, Int.natCast_mul]
  rfl

/-- The integer part of a negative number is not positive. -/
theorem roundToInt_negative_le (m : Nat) (e : Int) : roundToInt .negative m e ≤ 0 := by
  obtain ⟨n, rounded⟩ : ∃ n : Nat, roundToInt .negative m e = -(n : Int) := ⟨_, rfl⟩
  omega

/-! ### Comparisons -/

theorem lt_iff_compare {x y : Float} :
    x < y ↔ x.toModel.unpack.compare y.toModel.unpack = some .lt := by
  have unfolded : (x < y) =
      (decide (UnpackedFloat.lt x.toModel.unpack y.toModel.unpack = true) = true) := rfl
  rw [unfolded, decide_eq_true_iff, UnpackedFloat.lt, beq_iff_eq]

theorem unpack_ofWord_last : (ofWord TimeGrid.last).toModel.unpack =
    .finite .positive (2 ^ 52) 1 (Nat.two_pow_pos 52) := by
  rfl

theorem toWord_eq (x : Float) : toWord x =
    (UInt64.ofNatClamp (UnpackedFloat.toInt 0 (UInt64.size - 1) x.toModel.unpack).toNat).toNat :=
  rfl

theorem toNat_ofNatClamp_le (n : Nat) : (UInt64.ofNatClamp n).toNat ≤ n := by
  by_cases below : n < UInt64.size
  · rw [UInt64.toNat_ofNatClamp_of_lt below]
  · rw [UInt64.toNat_ofNatClamp_of_le (Nat.le_of_not_lt below)]
    omega

/-- The integer part of a double that is not above the last position is not above it either. -/
theorem toWord_le_last {x : Float} (within : ¬ ofWord TimeGrid.last < x) :
    toWord x ≤ TimeGrid.last := by
  have last : TimeGrid.last = 2 ^ 53 := rfl
  rw [lt_iff_compare, unpack_ofWord_last] at within
  rw [toWord_eq]
  refine Nat.le_trans (toNat_ofNatClamp_le _) (Int.toNat_le.2 ?_)
  cases unpacked : x.toModel.unpack with
  | notANumber => exact Int.natCast_nonneg _
  | zero sign => exact Int.natCast_nonneg _
  | infinity sign =>
      rw [unpacked] at within
      cases sign with
      | negative => exact Int.natCast_nonneg _
      | positive => exact absurd rfl within
  | finite sign m e pos =>
      rw [unpacked] at within
      rw [UnpackedFloat.toInt]
      cases sign with
      | negative =>
          have nonpos := roundToInt_negative_le m e
          omega
      | positive =>
          have small := mantissa_lt_of_unpack unpacked
          -- The last position is `2 ^ 52 * 2 ^ 1`, so exponents are compared before mantissas.
          have bound : ¬ (compare 1 e).then (compare (2 ^ 52) m) = .lt :=
            fun less => within (congrArg some less)
          rcases Int.lt_trichotomy 1 e with above | rfl | below
          · rw [Int.compare_eq_lt.2 above] at bound
            exact absurd rfl bound
          · rw [Int.compare_eq_eq.2 rfl] at bound
            have le : m ≤ 2 ^ 52 :=
              Nat.le_of_not_lt fun less => bound (Nat.compare_eq_lt.2 less)
            rw [roundToInt_one]
            omega
          · have le := roundToInt_le (m := m) (e := e) (by omega)
            omega

/-- A finite double that is not at most zero is above it. -/
theorem pos_of_not_nonpos {x : Float} (finite : x.isFinite = true) (above : ¬ x ≤ 0) : 0 < x := by
  have unfolded : (x ≤ 0) =
      (decide (UnpackedFloat.le x.toModel.unpack (.zero .positive) = true) = true) := rfl
  have zero : (0 : Float).toModel.unpack = .zero .positive := rfl
  rw [unfolded, decide_eq_true_iff, UnpackedFloat.le] at above
  rw [lt_iff_compare, zero]
  change UnpackedFloat.isFinite x.toModel.unpack = true at finite
  cases unpacked : x.toModel.unpack with
  | notANumber =>
      rw [unpacked] at finite
      exact absurd finite Bool.false_ne_true
  | infinity sign =>
      rw [unpacked] at finite
      exact absurd finite Bool.false_ne_true
  | zero sign =>
      rw [unpacked] at above
      exact absurd rfl above
  | finite sign m e pos =>
      rw [unpacked] at above
      cases sign with
      | negative => exact absurd rfl above
      | positive => rfl

/-- What compares equal to zero is zero with one of the signs. -/
theorem eq_zero_of_beq {x : Float} (equal : (x == 0) = true) : x = 0 ∨ x = -0 := by
  obtain ⟨-, -, same | ⟨same, -⟩ | ⟨same, -⟩⟩ := Float.beq_iff_ne_nan_and_eq.1 equal
  · exact Or.inl same
  · exact Or.inl same
  · exact Or.inr same

theorem eq_one_of_beq {x : Float} (equal : (x == 1) = true) : x = 1 := by
  obtain ⟨-, -, same | ⟨-, isZero⟩ | ⟨-, isZero⟩⟩ := Float.beq_iff_ne_nan_and_eq.1 equal
  · exact same
  · exact absurd isZero (by decide +kernel)
  · exact absurd isZero (by decide +kernel)

end Metronome.Number

namespace Metronome.TimeGrid

/-- A time that is not refused has a position of the grid. -/
theorem position_le_last {t timeBase : Float} {output : String} {point : Nat}
    (found : position t timeBase output = .ok point) : point ≤ last := by
  rw [position] at found
  split at found
  · cases found
  · dsimp only at found
    split at found
    · cases found
    · rename_i within
      cases found
      exact Number.toWord_le_last within

end Metronome.TimeGrid
