/-
Module: Metronome.Proofs.Normal
Purpose: The steps of packing and rounding: a full mantissa is kept when it is packed, and rounding
  shifts a mantissa to its length and adds one at most.
Trusted boundary: none
Main exports:
  Number.Normal, Number.unpack_pack, Number.shift_none, Number.shift_once,
  Number.roundedMantissa_bounds, Number.ofUInt64_toUInt64
-/
import Mathlib
import Metronome.Number.Nearest

/-!
A double that is not too small is stored without the leading bit of its mantissa, and the bit comes
back.  Rounding shifts a mantissa to its full length and adds one at most.  If this makes the
mantissa one bit longer, it is shifted once more.
-/

namespace Metronome.Number

open Float.Model (UnpackedFloat Format totalExponent)
open Float.Model.UnpackedFloat

/-- A mantissa of full length and an exponent that a double can have. -/
structure Normal (m : Nat) (e : Int) : Prop where
  low : 2 ^ 52 ≤ m
  high : m < 2 ^ 53
  least : -1074 ≤ e
  greatest : e ≤ 971

theorem Normal.pos {m : Nat} {e : Int} (normal : Normal m e) : 0 < m :=
  Nat.lt_of_lt_of_le (Nat.two_pow_pos 52) normal.low

theorem log2_eq {m k : Nat} (low : 2 ^ k ≤ m) (high : m < 2 ^ (k + 1)) : m.log2 = k := by
  have pos : m ≠ 0 := Nat.ne_of_gt (Nat.lt_of_lt_of_le (Nat.two_pow_pos k) low)
  exact (Nat.log2_eq_iff pos).2 ⟨low, high⟩

/-- A number below `2 ^ 53` has at most 53 bits. -/
theorem log2_le {n : Nat} (small : n < 2 ^ 53) : n.log2 ≤ 52 := by
  rcases Nat.eq_zero_or_pos n with rfl | pos
  · exact Nat.zero_le _
  · exact Nat.le_of_lt_succ ((Nat.log2_lt (Nat.ne_of_gt pos)).2 small)

/-! ### Packing -/

/-- The leading bit of a full mantissa is not stored, and comes back. -/
theorem toNat_leading {m : Nat} (low : 2 ^ 52 ≤ m) (high : m < 2 ^ 53) :
    (1#1 ++ BitVec.ofNat 52 m).toNat = m := by
  have below : m % 2 ^ 52 < 2 ^ 52 := Nat.mod_lt _ (Nat.two_pow_pos 52)
  rw [BitVec.toNat_append, BitVec.toNat_ofNat, BitVec.toNat_ofNat,
    ← Nat.shiftLeft_add_eq_or_of_lt below, Nat.shiftLeft_eq]
  omega

/-- A number with a full mantissa is packed into its biased exponent and the bits after the leading
one. -/
theorem pack_normal {m field : Nat} (low : 2 ^ 52 ≤ m) (high : m < 2 ^ 53) (pos : 0 < m)
    (bound : field < 2047) (sign : Sign) :
    UnpackedFloat.pack .binary64 (.finite sign m (field - 1075) pos) =
      packComponents .binary64 sign (BitVec.ofNat 11 field) (BitVec.ofNat 52 m) := by
  have shown : ((field : Int) - 1075 + Format.binary64.exponentBias +
      Format.binary64.mantissaBitsWithoutImplicit).toNat = field := by
    have bias : Format.binary64.exponentBias = 1023 := rfl
    have width : Format.binary64.mantissaBitsWithoutImplicit = 52 := rfl
    rw [bias, width]
    omega
  rw [pack]
  simp only [log2_eq low high, shown]
  rw [if_neg (by omega), if_pos (by rfl)]

/-- A number with a full mantissa is kept when it is packed. -/
theorem unpack_pack {m : Nat} {e : Int} (normal : Normal m e) (sign : Sign) :
    (Float.Model.pack (.finite sign m e normal.pos)).unpack = .finite sign m e normal.pos := by
  obtain ⟨low, high, least, greatest⟩ := normal
  have biased : ∃ field : Nat, e = field - 1075 ∧ 0 < field ∧ field < 2047 :=
    ⟨(e + 1075).toNat, by omega⟩
  obtain ⟨field, rfl, pos, bound⟩ := biased
  have fieldNat : (BitVec.ofNat 11 field).toNat = field := by
    rw [BitVec.toNat_ofNat, Nat.mod_eq_of_lt (by omega)]
  have differs : ∀ other : BitVec 11, other.toNat ≠ field → BitVec.ofNat 11 field ≠ other := by
    intro other apart same
    apply apart
    rw [← same, fieldNat]
  have notLast : BitVec.ofNat 11 field ≠ -1#11 := differs _ (Nat.ne_of_gt bound)
  have notFirst : BitVec.ofNat 11 field ≠ 0#11 := differs _ (Nat.ne_of_lt pos)
  have unfolded : (Float.Model.pack (.finite sign m (field - 1075) (by omega))).unpack =
      unpack .binary64 (pack .binary64 (.finite sign m (field - 1075) (by omega))) := rfl
  rw [unfolded, pack_normal low high (by omega) bound, unpack]
  simp only [unpackMantissa_packComponents, unpackExponent_packComponents,
    unpackSign_packComponents, Sign.ofBitVec_toBitVec]
  rw [if_neg notLast, if_neg notFirst]
  simp only [UnpackedFloat.finite.injEq, true_and]
  refine ⟨toNat_leading low high, ?_⟩
  rw [fieldNat]
  rfl

/-! ### Rounding -/

theorem targetExponent_eq (m : Nat) (e : Int) :
    Format.binary64.targetExponent (totalExponent m e) = max (m.log2 + 1 + e - 53) (-1074) :=
  rfl

theorem mantissa_of (m : Nat) (accuracy : Accuracy) :
    (ExtendedMantissa.ofMantissaAndAccuracy m accuracy).mantissa = m := by
  cases accuracy with
  | exact => rfl
  | inexact order => cases order <;> rfl

/-- A mantissa that is short enough is not shifted. -/
theorem shift_none {m : Nat} {e : Int} (high : m < 2 ^ 53) (least : -1074 ≤ e)
    (accuracy : Accuracy) :
    shiftToTargetExponent .binary64 m e accuracy =
      (ExtendedMantissa.ofMantissaAndAccuracy m accuracy, e) := by
  have le := log2_le high
  have amount : (max ((m.log2 : Int) + 1 + e - 53) (-1074) - e).toNat = 0 := by omega
  rw [shiftToTargetExponent, targetExponent_eq, shiftToExponent, amount]
  simp only [Int.natCast_zero, Int.add_zero]
  rfl

theorem mantissa_shiftRight (extended : ExtendedMantissa) (amount : Nat) :
    (extended >>> amount).mantissa = extended.mantissa / 2 ^ amount := by
  induction amount with
  | zero => exact (Nat.div_one _).symm
  | succ amount ih =>
      rw [Nat.pow_succ, ← Nat.div_div_eq_div_mul, ← ih]
      rfl

/-- A mantissa with one bit too many is shifted once. -/
theorem shift_once {m : Nat} {e : Int} (low : 2 ^ 53 ≤ m) (high : m < 2 ^ 54)
    (least : -1075 ≤ e) (accuracy : Accuracy) :
    shiftToTargetExponent .binary64 m e accuracy =
      ((ExtendedMantissa.ofMantissaAndAccuracy m accuracy).shiftRightOne, e + 1) := by
  have amount : (max ((53 : Nat) + 1 + e - 53) (-1074) - e).toNat = 1 := by omega
  rw [shiftToTargetExponent, targetExponent_eq, log2_eq low high]
  rw [shiftToExponent, amount]
  rfl

/-- Rounding adds one at most. -/
theorem roundedMantissa_bounds (extended : ExtendedMantissa) :
    extended.mantissa ≤ extended.roundedMantissa ∧
      extended.roundedMantissa ≤ extended.mantissa + 1 := by
  have parity := Nat.mod_lt extended.mantissa (Nat.succ_pos 1)
  rw [ExtendedMantissa.roundedMantissa]
  cases extended.accuracy with
  | exact => exact ⟨Nat.le_refl _, Nat.le_succ _⟩
  | inexact order =>
      cases order with
      | lt => exact ⟨Nat.le_refl _, Nat.le_succ _⟩
      | eq => exact ⟨Nat.le_add_right .., Nat.add_le_add_left (Nat.le_of_lt_succ parity) _⟩
      | gt => exact ⟨Nat.le_succ _, Nat.le_refl _⟩

/-! ### Whole numbers -/

/-- A positive word is converted by rounding it. -/
theorem ofUInt64_toUInt64 {n : Nat} (pos : 1 ≤ n) (word : n < 2 ^ 64) :
    UnpackedFloat.ofUInt64 .binary64 n.toUInt64 =
      UnpackedFloat.round .binary64 .positive n 0 := by
  have unwrapped : n.toUInt64.toNat = n := by
    rw [Nat.toUInt64_eq, UInt64.toNat_ofNat', Nat.mod_eq_of_lt word]
  have positive : compare (n : Int) 0 = .gt := Int.compare_eq_gt.2 (by omega)
  rw [UnpackedFloat.ofUInt64, unwrapped, UnpackedFloat.ofNat, UnpackedFloat.ofInt,
    UnpackedFloat.normalize, positive]
  rfl

end Metronome.Number
