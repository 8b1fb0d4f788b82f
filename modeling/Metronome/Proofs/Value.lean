/-
Module: Metronome.Proofs.Value
Purpose: Doubles as rational numbers: how far products and quotients are from the exact ones, what
  the nearest whole number of a double is, and that comparisons are those of the numbers.
Trusted boundary: none
Main exports:
  Number.value, Number.Nonnegative, Number.RoundsTo, Number.mul_roundsTo, Number.abs_sub_roundsTo,
  Number.div_roundsTo, Number.ofWord_near, Number.lt_iff_value, Number.toWord_of_nonnegative,
  Number.closest, Number.nearest_of_nonnegative
-/
import Mathlib
import Metronome.Proofs.Comparison
import Metronome.Proofs.Rounding

/-!
Periods, frequencies and counts have no minus, and of such doubles everything that the program
computes is said here by rational numbers.  A result is close to the exact one or, if that is large,
infinite.  Comparisons and the nearest whole number are exact.
-/

namespace Metronome.Number

open Float.Model (UnpackedFloat Format)
open Float.Model.UnpackedFloat

variable {m n : Nat} {e f : Int} {q : ℚ} {x y : Float}

/-! ### Values -/

/-- The rational number that a float is.  Infinities and NaN count as zero. -/
def floatValue : UnpackedFloat → ℚ
  | .finite .positive m e _ => scaled m e
  | .finite .negative m e _ => -scaled m e
  | _ => 0

/-- The rational number that a double is.  Infinities and NaN count as zero. -/
def value (x : Float) : ℚ :=
  floatValue x.toModel.unpack

/-- A finite double without a minus. -/
def Nonnegative (x : Float) : Prop :=
  ∃ m e, Canonical m e ∧ e ≤ 971 ∧ x.toModel.unpack = float .positive m e

theorem value_of_unpack (unpacked : x.toModel.unpack = float .positive m e) :
    value x = scaled m e := by
  rw [value, unpacked, float]
  split
  · rename_i isZero
    simp [isZero, floatValue, scaled]
  · rfl

theorem Nonnegative.value_nonneg (nonneg : Nonnegative x) : 0 ≤ value x := by
  obtain ⟨m, e, -, -, unpacked⟩ := nonneg
  rw [value_of_unpack unpacked]
  exact scaled_nonneg m e

/-- Doubles have the form of doubles. -/
theorem canonical_of_unpack {sign : Sign} {pos : 0 < m}
    (finite : x.toModel.unpack = .finite sign m e pos) : Canonical m e ∧ e ≤ 971 := by
  have high := mantissa_lt_of_unpack finite
  have field : (@unpackExponent .binary64 x.toModel.toBits.toBitVec).toNat < 2048 :=
    (@unpackExponent .binary64 x.toModel.toBits.toBitVec).isLt
  have bias : (Format.binary64.exponentBias : Int) + (52 : Nat) = 1075 := rfl
  rw [Float.Model.unpack, unpack] at finite
  dsimp only at finite
  split at finite
  · split at finite <;> simp at finite
  · rename_i notLast
    split at finite
    · rename_i isFirst
      split at finite
      · simp at finite
      · obtain ⟨-, -, rfl⟩ := UnpackedFloat.finite.inj finite
        rw [isFirst]
        exact ⟨⟨high, by decide, Or.inl (by decide)⟩, by decide⟩
    · rename_i notFirst
      obtain ⟨-, rfl, rfl⟩ := UnpackedFloat.finite.inj finite
      rw [bias]
      have notZero : (@unpackExponent .binary64 x.toModel.toBits.toBitVec).toNat ≠ 0 :=
        fun same => notFirst (BitVec.eq_of_toNat_eq same)
      have notMax : (@unpackExponent .binary64 x.toModel.toBits.toBitVec).toNat ≠ 2047 :=
        fun same => notLast (BitVec.eq_of_toNat_eq same)
      refine ⟨⟨high, by omega, Or.inr ?_⟩, by omega⟩
      rw [BitVec.toNat_append]
      exact Nat.left_le_or

/-- The power of two after the largest double, which stands for infinity among the numbers. -/
def limit : ℚ :=
  2 ^ (1024 : Int)

theorem limit_pos : 0 < limit :=
  two_zpow_pos 1024

/-- Doubles end below the limit. -/
theorem scaled_lt (canonical : Canonical m e) (bounded : e ≤ 971) : scaled m e < limit := by
  have high : (m : ℚ) < 2 ^ (53 : Int) := by exact_mod_cast canonical.high
  calc scaled m e < 2 ^ (53 : Int) * 2 ^ e := mul_lt_mul_of_pos_right high (two_zpow_pos e)
    _ = 2 ^ (53 + e) := (zpow_add₀ (by norm_num) _ _).symm
    _ ≤ limit := zpow_le_zpow_right₀ (by norm_num) (by omega)

/-- What has the form of doubles but a larger exponent is not below the limit. -/
theorem limit_le_scaled (canonical : Canonical m e) (large : 971 < e) : limit ≤ scaled m e := by
  have full : 2 ^ 52 ≤ m := canonical.full.resolve_left (by omega)
  calc limit ≤ 2 ^ (52 + e) := zpow_le_zpow_right₀ (by norm_num) (by omega)
    _ = 2 ^ (52 : Int) * 2 ^ e := zpow_add₀ (by norm_num) _ _
    _ ≤ scaled m e := mul_le_mul_of_nonneg_right (by exact_mod_cast full) (two_zpow_pos e).le

/-! ### Rounded results -/

/-- The distance between doubles is a part of a number and the smallest double at most. -/
theorem spacing_le (nonneg : 0 ≤ q) : spacing q ≤ q / 2 ^ 52 + 2 ^ (-1074 : Int) :=
  max_le_add_of_nonneg (div_nonneg nonneg (by norm_num)) (two_zpow_pos _).le

/-- The smallest double is small. -/
theorem least_le : (2 : ℚ) ^ (-1074 : Int) ≤ 1 / 2 ^ 200 := by
  calc (2 : ℚ) ^ (-1074 : Int) ≤ 2 ^ (-200 : Int) :=
        zpow_le_zpow_right₀ (by norm_num) (by norm_num)
    _ = 1 / 2 ^ 200 := by norm_num

/-- What an operation gives whose exact result is a number: a double about as close to it as doubles
are to each other, or infinity, but for that the number has to be large. -/
inductive RoundsTo (q : ℚ) (x : Float) : Prop
  | finite (nonneg : Nonnegative x) (near : |value x - q| ≤ spacing q)
  | infinite (unpacked : x.toModel.unpack = .infinity .positive) (large : 2 ^ 200 ≤ q)

/-- Where the exponent of a rounded number is too large, the number is large. -/
theorem large_of_exponent (canonical : Canonical m e) (large : 971 < e)
    (near : |scaled m e - q| ≤ spacing q) : 2 ^ 200 ≤ q := by
  have full : 2 ^ 52 ≤ m := canonical.full.resolve_left (by omega)
  have lowest : (2 : ℚ) ^ 252 ≤ scaled m e := by
    calc (2 : ℚ) ^ 252 = 2 ^ 52 * 2 ^ (200 : Int) := by norm_num
      _ ≤ (m : ℚ) * 2 ^ e := mul_le_mul (by exact_mod_cast full)
        (zpow_le_zpow_right₀ (by norm_num) (by omega)) (two_zpow_pos 200).le (Nat.cast_nonneg m)
  have above := (abs_le.1 near).2
  by_contra small
  rw [not_le] at small
  have bound : spacing q ≤ 2 ^ 200 := by
    refine max_le ?_ (least_le.trans (by norm_num))
    rw [div_le_iff₀ (by norm_num)]
    exact small.le.trans (by norm_num)
  norm_num at lowest small bound
  linarith

theorem Rounds.roundsTo {rounded : UnpackedFloat} (rounds : Rounds .positive q rounded) :
    RoundsTo q (.ofModel (.pack rounded)) := by
  obtain ⟨m, e, canonical, rfl, near⟩ := rounds
  have unpacked := unpack_pack_float canonical .positive
  split at unpacked
  · rename_i bounded
    refine .finite ⟨m, e, canonical, bounded, unpacked⟩ ?_
    have same : value (.ofModel (.pack (float .positive m e))) = scaled m e :=
      value_of_unpack unpacked
    rwa [same]
  · rename_i large
    exact .infinite unpacked (large_of_exponent canonical (by omega) near)

/-- A magnitude whose nearest double is below the limit is packed into that double. -/
theorem RoundsEven.nonnegative {rounded : UnpackedFloat} (even : RoundsEven .positive q rounded)
    (small : nearestDouble q < limit) :
    Nonnegative (.ofModel (.pack rounded)) ∧
      value (.ofModel (.pack rounded)) = nearestDouble q := by
  obtain ⟨m, e, canonical, rfl, same⟩ := even
  rw [← same] at small ⊢
  have bounded : e ≤ 971 := not_lt.1 fun large => small.not_ge (limit_le_scaled canonical large)
  have unpacked : (Float.ofModel (.pack (float .positive m e))).toModel.unpack =
      float .positive m e := (unpack_pack_float canonical .positive).trans (if_pos bounded)
  exact ⟨⟨m, e, canonical, bounded, unpacked⟩, value_of_unpack unpacked⟩

/-- A product is close to the product of the values. -/
theorem mul_roundsTo (first : Nonnegative x) (second : Nonnegative y) :
    RoundsTo (value x * value y) (x * y) := by
  obtain ⟨m, e, canonical, -, unpacked⟩ := first
  obtain ⟨n, f, other, -, otherUnpacked⟩ := second
  have product : x * y =
      .ofModel (.pack (mul .binary64 x.toModel.unpack y.toModel.unpack)) := rfl
  rw [product, value_of_unpack unpacked, value_of_unpack otherUnpacked, unpacked, otherUnpacked]
  exact ((mul_even canonical other .positive .positive).rounds
    (mul_nonneg (scaled_nonneg m e) (scaled_nonneg n f))).roundsTo

/-- The magnitude of a difference is close to the distance of the values. -/
theorem abs_sub_roundsTo (first : Nonnegative x) (second : Nonnegative y) :
    RoundsTo |value x - value y| (x - y).abs := by
  obtain ⟨m, e, canonical, -, unpacked⟩ := first
  obtain ⟨n, f, other, -, otherUnpacked⟩ := second
  obtain ⟨sign, -, even⟩ := sub_correct canonical other .positive .positive
  obtain ⟨k, g, result, difference, near⟩ := even.rounds (abs_nonneg _)
  have magnitude : (x - y).abs = .ofModel (.pack (Float.Model.pack
      (sub .binary64 x.toModel.unpack y.toModel.unpack)).unpack.abs) := rfl
  rw [magnitude, value_of_unpack unpacked, value_of_unpack otherUnpacked, unpacked, otherUnpacked,
    difference, unpack_pack_float result]
  split
  · have positive : (float sign k g).abs = float .positive k g := by
      rcases Nat.eq_zero_or_pos k with rfl | pos
      · rw [float_zero, float_zero]
        rfl
      · rw [float_of_pos pos, float_of_pos pos]
        rfl
    rw [positive]
    exact Rounds.roundsTo ⟨k, g, result, rfl, near⟩
  · rename_i large
    have infinite : (Float.ofModel (.pack (UnpackedFloat.infinity sign).abs)).toModel.unpack =
        .infinity .positive := by
      cases sign <;> rfl
    exact .infinite infinite (large_of_exponent result (by omega) near)

/-- A quotient is close to the quotient of the values. -/
theorem div_roundsTo (dividend : Nonnegative x) (divisor : Nonnegative y) (pos : 0 < value y) :
    RoundsTo (value x / value y) (x / y) := by
  obtain ⟨m, e, canonical, -, unpacked⟩ := dividend
  obtain ⟨n, f, other, -, otherUnpacked⟩ := divisor
  have quotient : x / y =
      .ofModel (.pack (div .binary64 x.toModel.unpack y.toModel.unpack)) := rfl
  rw [value_of_unpack otherUnpacked] at pos
  rw [quotient, value_of_unpack unpacked, value_of_unpack otherUnpacked, unpacked, otherUnpacked]
  exact ((div_even (pos_of_scaled_pos pos) .positive .positive).rounds
    (div_nonneg (scaled_nonneg m e) (scaled_nonneg n f))).roundsTo

/-- A positive word is close to its double. -/
theorem ofWord_near (pos : 1 ≤ n) (word : n < 2 ^ 64) :
    Nonnegative (ofWord n) ∧ |value (ofWord n) - n| ≤ spacing n := by
  have unfolded : ofWord n = .ofModel (.pack (UnpackedFloat.ofUInt64 .binary64 n.toUInt64)) := rfl
  have rounds := (round_even pos 0 .positive).rounds (scaled_nonneg n 0)
  rw [scaled, zpow_zero, mul_one] at rounds
  cases unfolded ▸ ofUInt64_toUInt64 pos word ▸ rounds.roundsTo with
  | finite nonneg near => exact ⟨nonneg, near⟩
  | infinite unpacked large =>
      have small : (n : ℚ) < 2 ^ 64 := by exact_mod_cast word
      norm_num at small large
      linarith

/-! ### Order -/

/-- Of numbers in the form of doubles the one with the larger exponent is the larger one. -/
theorem scaled_lt_of_exponent (first : Canonical m e) (second : Canonical n f) (less : e < f) :
    scaled m e < scaled n f := by
  have full : 2 ^ 52 ≤ n := second.full.resolve_left (by have := first.least; omega)
  calc scaled m e < scaled (2 ^ 53) e := by
        rw [scaled, scaled]
        exact mul_lt_mul_of_pos_right (by exact_mod_cast first.high) (two_zpow_pos e)
    _ = scaled (2 ^ 52) (e + 1) := by
        rw [Nat.pow_succ, ← Nat.pow_one 2, scaled_shift, Nat.pow_one, Nat.cast_one]
    _ ≤ scaled (2 ^ 52) f := by
        rw [scaled, scaled]
        refine mul_le_mul_of_nonneg_left ?_ (Nat.cast_nonneg _)
        exact zpow_le_zpow_right₀ (by norm_num) (by omega)
    _ ≤ scaled n f := scaled_le_scaled full f

/-- Numbers in the form of doubles are compared by their exponents first. -/
theorem scaled_lt_iff (first : Canonical m e) (second : Canonical n f) :
    scaled m e < scaled n f ↔ e < f ∨ e = f ∧ m < n := by
  rcases Int.lt_trichotomy e f with less | rfl | greater
  · exact iff_of_true (scaled_lt_of_exponent first second less) (Or.inl less)
  · have same : scaled m e < scaled n e ↔ m < n := by
      rw [scaled, scaled, mul_lt_mul_iff_left₀ (two_zpow_pos e), Nat.cast_lt]
    rw [same]
    omega
  · have reverse := scaled_lt_of_exponent second first greater
    exact iff_of_false (not_lt.2 reverse.le) (by omega)

/-- Doubles without a minus are compared by their values. -/
theorem lt_iff_value (first : Nonnegative x) (second : Nonnegative y) :
    x < y ↔ value x < value y := by
  obtain ⟨m, e, canonical, -, unpacked⟩ := first
  obtain ⟨n, f, other, -, otherUnpacked⟩ := second
  rw [lt_iff_compare, value_of_unpack unpacked, value_of_unpack otherUnpacked, unpacked,
    otherUnpacked]
  rcases Nat.eq_zero_or_pos m with rfl | mPos
  · rw [float_zero, scaled_zero]
    rcases Nat.eq_zero_or_pos n with rfl | nPos
    · rw [float_zero, scaled_zero]
      exact iff_of_false nofun (lt_irrefl _)
    · rw [float_of_pos nPos]
      exact iff_of_true rfl (scaled_pos nPos f)
  · rw [float_of_pos mPos]
    rcases Nat.eq_zero_or_pos n with rfl | nPos
    · rw [float_zero, scaled_zero]
      exact iff_of_false nofun (not_lt.2 (scaled_nonneg m e))
    · rw [float_of_pos nPos, scaled_lt_iff canonical other, UnpackedFloat.compare,
        Option.some_inj, Ordering.then_eq_lt, Int.compare_eq_lt, Int.compare_eq_eq,
        Nat.compare_eq_lt]

/-- A double without a minus is below infinity. -/
theorem lt_infinity (nonneg : Nonnegative x) (infinite : y.toModel.unpack = .infinity .positive) :
    x < y := by
  obtain ⟨m, e, -, -, unpacked⟩ := nonneg
  rw [lt_iff_compare, unpacked, infinite]
  rcases Nat.eq_zero_or_pos m with rfl | pos
  · rw [float_zero]
    rfl
  · rw [float_of_pos pos]
    rfl

theorem unpack_zero : (0 : Float).toModel.unpack = float .positive 0 (-1074) :=
  rfl

theorem nonnegative_zero : Nonnegative 0 :=
  ⟨0, -1074, ⟨by decide, le_rfl, Or.inl rfl⟩, by decide, unpack_zero⟩

theorem value_zero : value 0 = 0 := by
  rw [value_of_unpack unpack_zero, scaled_zero]

theorem unpack_one : (1 : Float).toModel.unpack = float .positive (2 ^ 52) (-52) :=
  rfl

theorem canonical_one : Canonical (2 ^ 52) (-52) :=
  ⟨by decide, by decide, Or.inr le_rfl⟩

theorem nonnegative_one : Nonnegative 1 :=
  ⟨2 ^ 52, -52, canonical_one, by decide, unpack_one⟩

theorem value_one : value 1 = 1 := by
  rw [value_of_unpack unpack_one, scaled]
  norm_num

/-- The larger of one and a double. -/
theorem atLeast_one (nonneg : Nonnegative x) :
    Nonnegative (atLeast 1 x) ∧ value (atLeast 1 x) = max 1 (value x) := by
  have order := lt_iff_value nonnegative_one nonneg
  rw [value_one] at order
  rw [atLeast]
  split
  · rename_i above
    exact ⟨nonneg, (max_eq_right (order.1 above).le).symm⟩
  · rename_i below
    rw [value_one]
    exact ⟨nonnegative_one, (max_eq_left (not_lt.1 fun above => below (order.2 above))).symm⟩

/-- A finite double is a zero or has the form of doubles. -/
theorem unpack_of_isFinite (finite : x.isFinite = true) :
    (∃ sign, x.toModel.unpack = .zero sign) ∨
      ∃ sign m e, ∃ pos : 0 < m, Canonical m e ∧ e ≤ 971 ∧
        x.toModel.unpack = .finite sign m e pos := by
  change UnpackedFloat.isFinite x.toModel.unpack = true at finite
  cases unpacked : x.toModel.unpack with
  | notANumber =>
      rw [unpacked] at finite
      exact absurd finite Bool.false_ne_true
  | infinity sign =>
      rw [unpacked] at finite
      exact absurd finite Bool.false_ne_true
  | zero sign => exact Or.inl ⟨sign, rfl⟩
  | finite sign m e pos =>
      obtain ⟨canonical, bounded⟩ := canonical_of_unpack unpacked
      exact Or.inr ⟨sign, m, e, pos, canonical, bounded, rfl⟩

/-- A finite double above zero has no minus. -/
theorem nonnegative_of_pos (finite : x.isFinite = true) (above : 0 < x) :
    Nonnegative x ∧ 0 < value x := by
  have zero : (0 : Float).toModel.unpack = .zero .positive := rfl
  rw [lt_iff_compare, zero] at above
  rcases unpack_of_isFinite finite with ⟨sign, unpacked⟩ |
    ⟨sign, m, e, pos, canonical, bounded, unpacked⟩
  · exact absurd (unpacked ▸ above) nofun
  · cases sign with
    | negative => exact absurd (unpacked ▸ above) nofun
    | positive =>
        rw [← float_of_pos pos] at unpacked
        refine ⟨⟨m, e, canonical, bounded, unpacked⟩, ?_⟩
        rw [value_of_unpack unpacked]
        exact scaled_pos pos e

/-- A finite double from one on has no minus. -/
theorem nonnegative_of_one_le (finite : x.isFinite = true) (above : 1 ≤ x) :
    Nonnegative x ∧ 1 ≤ value x := by
  have unfolded : (1 ≤ x) = (decide (UnpackedFloat.le (float .positive (2 ^ 52) (-52))
      x.toModel.unpack = true) = true) := rfl
  rw [unfolded, decide_eq_true_iff, UnpackedFloat.le, float_of_pos (by decide)] at above
  rcases unpack_of_isFinite finite with ⟨sign, unpacked⟩ |
    ⟨sign, m, e, pos, canonical, bounded, unpacked⟩
  · rw [unpacked] at above
    exact absurd above Bool.false_ne_true
  · rw [unpacked] at above
    cases sign with
    | negative => exact absurd above Bool.false_ne_true
    | positive =>
        have order : ((compare (-52) e).then (compare (2 ^ 52) m)).isLE = true := above
        have notLess : ¬ scaled m e < scaled (2 ^ 52) (-52) := by
          rw [scaled_lt_iff canonical canonical_one]
          rintro (less | ⟨rfl, short⟩)
          · rw [Int.compare_eq_gt.2 less] at order
            exact absurd order Bool.false_ne_true
          · rw [Int.compare_eq_eq.2 rfl, Nat.compare_eq_gt.2 short] at order
            exact absurd order Bool.false_ne_true
        rw [← float_of_pos pos] at unpacked
        refine ⟨⟨m, e, canonical, bounded, unpacked⟩, ?_⟩
        rw [value_of_unpack unpacked, ← value_one, value_of_unpack unpack_one]
        exact not_lt.1 notLess

/-! ### Whole numbers -/

/-- A mantissa and an exponent as a fraction of natural numbers. -/
theorem scaled_eq_div (m : Nat) (e : Int) :
    scaled m e = (m * 2 ^ e.toNat : Nat) / (2 ^ (-e).toNat : Nat) := by
  rcases Int.le_total 0 e with above | below
  · obtain ⟨k, rfl⟩ := Int.eq_ofNat_of_zero_le above
    have none : (-(k : Int)).toNat = 0 := by omega
    rw [none, Int.toNat_natCast, scaled, zpow_natCast]
    push_cast
    ring
  · obtain ⟨k, rfl⟩ := Int.exists_eq_neg_ofNat below
    have none : (-(k : Int)).toNat = 0 := by omega
    rw [none, neg_neg, Int.toNat_natCast, scaled, zpow_neg, zpow_natCast]
    push_cast
    ring

theorem roundToInt_positive (m : Nat) (e : Int) :
    roundToInt .positive m e = (m * 2 ^ e.toNat / 2 ^ (-e).toNat : Nat) := by
  have lowered : (0 - (e - ((e - 0).toNat : Int))).toNat = (-e).toNat := by omega
  rw [roundToInt, decreaseExponent]
  dsimp only [Sign.apply]
  rw [shiftToExponent, lowered]
  dsimp only
  rw [mantissa_shiftRight, mantissa_of, Nat.shiftLeft_eq, Int.sub_zero]

/-- The integer part of a double without a minus stops at the largest word. -/
theorem toWord_of_nonnegative (nonneg : Nonnegative x) :
    toWord x = min ⌊value x⌋₊ (UInt64.size - 1) := by
  obtain ⟨m, e, -, -, unpacked⟩ := nonneg
  have integer : UnpackedFloat.toInt 0 (UInt64.size - 1) (float .positive m e) =
      (m * 2 ^ e.toNat / 2 ^ (-e).toNat : Nat) := by
    rcases Nat.eq_zero_or_pos m with rfl | pos
    · rw [float_zero, Nat.zero_mul, Nat.zero_div]
      rfl
    · rw [float_of_pos pos]
      exact roundToInt_positive m e
  rw [toWord_eq, unpacked, integer, Int.toNat_natCast, value_of_unpack unpacked, scaled_eq_div,
    Nat.floor_div_eq_div]
  generalize m * 2 ^ e.toNat / 2 ^ (-e).toNat = whole
  by_cases below : whole < UInt64.size
  · rw [UInt64.toNat_ofNatClamp_of_lt below]
    omega
  · rw [UInt64.toNat_ofNatClamp_of_le (Nat.le_of_not_lt below)]
    omega

/-- The whole number nearest to a number, a half going up. -/
def closest (q : ℚ) : Nat :=
  ⌊q + 1 / 2⌋₊

theorem closest_near (nonneg : 0 ≤ q) : |(closest q : ℚ) - q| ≤ 1 / 2 := by
  have low := Nat.floor_le (add_nonneg nonneg (by norm_num : (0 : ℚ) ≤ 1 / 2))
  have high := Nat.lt_floor_add_one (q + 1 / 2)
  rw [closest, abs_le]
  constructor <;> linarith

/-- A number below `2 ^ 53` is a double. -/
theorem ofScaled_word (small : n < 2 ^ 53) :
    Nonnegative (ofScaled .positive n 0) ∧ value (ofScaled .positive n 0) = n := by
  rcases Nat.eq_zero_or_pos n with rfl | pos
  · have unpacked : (ofScaled .positive 0 0).toModel.unpack = float .positive 0 (-1074) := rfl
    refine ⟨⟨0, -1074, ⟨by decide, le_rfl, Or.inl rfl⟩, by decide, unpacked⟩, ?_⟩
    rw [value_of_unpack unpacked, scaled_zero, Nat.cast_zero]
  · have even := round_even pos 0 .positive
    rw [scaled, zpow_zero, mul_one] at even
    have kept := nearestDouble_natCast small
    have below : (n : ℚ) < limit :=
      calc (n : ℚ) < 2 ^ (53 : Int) := by exact_mod_cast small
        _ ≤ limit := zpow_le_zpow_right₀ (by norm_num) (by norm_num)
    rw [← kept] at below ⊢
    exact even.nonnegative below

/-- The nearest whole number of a double without a minus is that of its value. -/
theorem nearest_of_nonnegative (nonneg : Nonnegative x) :
    Nonnegative (nearest x) ∧ value (nearest x) = closest (value x) := by
  obtain ⟨m, e, canonical, bounded, unpacked⟩ := nonneg
  rcases Nat.eq_zero_or_pos m with rfl | pos
  · have kept : nearest x = x := by
      rw [nearest, unpacked, float_zero]
    rw [kept, value_of_unpack unpacked, scaled_zero, closest]
    refine ⟨⟨0, e, canonical, bounded, unpacked⟩, ?_⟩
    norm_num
  · rw [nearest, unpacked, float_of_pos pos, value_of_unpack unpacked, closest, scaled_eq_div]
    dsimp only
    split
    · rename_i above
      have none : (-e).toNat = 0 := by omega
      rw [value_of_unpack unpacked, scaled_eq_div, none, Nat.pow_zero, Nat.cast_one, div_one]
      refine ⟨⟨m, e, canonical, bounded, unpacked⟩, ?_⟩
      rw [eq_comm, Nat.cast_inj, Nat.floor_eq_iff (by positivity)]
      constructor <;> linarith
    · rename_i below
      have none : e.toNat = 0 := by omega
      have half : ((m * 2 ^ e.toNat : Nat) : ℚ) / (2 ^ (-e).toNat : Nat) + 1 / 2 =
          (2 * m + 2 ^ (-e).toNat : Nat) / (2 * 2 ^ (-e).toNat : Nat) := by
        rw [none]
        push_cast
        field_simp
      have rounded : nearestNat m e = (2 * m + 2 ^ (-e).toNat) / (2 * 2 ^ (-e).toNat) := by
        rw [nearestNat, if_neg below, Nat.shiftLeft_eq, Nat.shiftLeft_eq, Nat.one_mul]
      rw [half, Nat.floor_div_eq_div, ← rounded]
      apply ofScaled_word
      have high := canonical.high
      have unit := Nat.one_le_two_pow (n := (-e).toNat)
      rw [rounded, Nat.div_lt_iff_lt_mul (by omega)]
      generalize 2 ^ (-e).toNat = p at unit
      omega

end Metronome.Number
