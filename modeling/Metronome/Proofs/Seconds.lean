/-
Module: Metronome.Proofs.Seconds
Purpose: On a time base that is a number the seconds of a distance are a number too.
Trusted boundary: none
Main exports:
  Number.isNaN_pack, Number.unpack_ofWord, TimeGrid.isNaN_seconds
-/
import Metronome.Proofs.Arithmetic

/-!
A quotient is undefined only if one of its parts is, or if both are zero or both infinite.  The
double of a positive word is neither, so that an undefined time base is the only way to undefined
seconds.
-/

namespace Metronome

namespace Number

open Float.Model (UnpackedFloat Format totalExponent)
open Float.Model.UnpackedFloat

/-- A finite double is a number. -/
theorem isNaN_of_isFinite {x : Float} (finite : x.isFinite = true) : x.isNaN = false := by
  rw [Float.isNaN_eq_decide_eq_nan, decide_eq_false_iff_not]
  rintro rfl
  exact absurd finite (by decide)

/-- Packing makes no number undefined: one that is too large becomes infinite. -/
theorem isNaN_pack {unpacked : UnpackedFloat} (number : unpacked ≠ .notANumber) :
    (Float.ofModel (.pack unpacked)).isNaN = false := by
  have opened : (Float.ofModel (.pack unpacked)).isNaN =
      (unpack .binary64 (pack .binary64 unpacked)).isNaN := rfl
  rw [opened]
  cases unpacked with
  | notANumber => exact absurd rfl number
  | infinity sign => cases sign <;> rfl
  | zero sign => cases sign <;> rfl
  | finite sign m e pos =>
      have exponentField : ∀ (field : BitVec 11) (rest : BitVec 52), field ≠ -1#11 →
          (unpack .binary64 (packComponents .binary64 sign field rest)).isNaN = false := by
        intro field rest differs
        rw [unpack]
        simp only [unpackMantissa_packComponents, unpackExponent_packComponents]
        rw [if_neg differs]
        split
        · split <;> rfl
        · rfl
      rw [pack]
      dsimp only
      split
      · cases sign <;> rfl
      · rename_i bounded
        split
        · apply exponentField
          intro same
          have value := congrArg BitVec.toNat same
          rw [BitVec.toNat_ofNat, Nat.mod_eq_of_lt (by omega)] at value
          have largest : (-1#11).toNat = 2 ^ 11 - 1 := by decide
          omega
        · exact exponentField _ _ (by decide)

/-- Rounding makes no number undefined. -/
theorem roundWithAccuracy_ne_notANumber (sign : Sign) (m : Nat) (e : Int) (accuracy : Accuracy) :
    roundWithAccuracy .binary64 sign m e accuracy ≠ .notANumber := by
  unfold roundWithAccuracy
  dsimp only
  split
  · exact nofun
  · exact nofun

/-- A positive word is a finite double above zero. -/
theorem unpack_ofWord {n : Nat} (pos : 1 ≤ n) (word : n < 2 ^ 64) :
    ∃ m e, ∃ positive : 0 < m, (ofWord n).toModel.unpack = .finite .positive m e positive := by
  obtain ⟨⟨m, e, -, -, unpacked⟩, nearest⟩ := ofWord_nearest word
  rw [value_of_unpack unpacked] at nearest
  have one := one_le_nearestDouble pos
  rw [← nearest] at one
  have positive := pos_of_scaled_pos (zero_lt_one.trans_le one)
  exact ⟨m, e, positive, unpacked.trans (float_of_pos positive ..)⟩

end Number

/-- The seconds of a positive distance are a number if the time base is one. -/
theorem TimeGrid.isNaN_seconds {timeBase : Float} (number : timeBase.isNaN = false)
    {distance : Nat} (pos : 1 ≤ distance) (word : distance < 2 ^ 64) :
    (seconds distance timeBase).isNaN = false := by
  obtain ⟨m, e, positive, unpacked⟩ := Number.unpack_ofWord pos word
  have quotient : seconds distance timeBase = .ofModel (.pack (Float.Model.UnpackedFloat.div
      .binary64 (Number.ofWord distance).toModel.unpack timeBase.toModel.unpack)) := rfl
  rw [quotient, unpacked]
  apply Number.isNaN_pack
  cases divisor : timeBase.toModel.unpack with
  | notANumber =>
      have undefined : timeBase.isNaN = timeBase.toModel.unpack.isNaN := rfl
      rw [undefined, divisor] at number
      exact absurd number Bool.noConfusion
  | infinity sign => exact nofun
  | zero sign => exact nofun
  | finite sign n f other =>
      exact Number.roundWithAccuracy_ne_notANumber _ _ _ _

end Metronome
