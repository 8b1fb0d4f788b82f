/-
Module: Metronome.Proofs.Rounding
Purpose: Rounding makes of a number the double nearest to it, and every operation rounds its exact
  result.
Trusted boundary: none
Main exports:
  Number.scaled, Number.Canonical, Number.RoundsEven, Number.Correct, Number.Rounds,
  Number.roundWithAccuracy_even, Number.round_even, Number.add_correct, Number.sub_correct,
  Number.mul_even, Number.div_even, Number.unpack_pack_float
-/
import Mathlib
import Metronome.Proofs.Normal
import Metronome.Proofs.HalfEven

/-!
A mantissa and an exponent are a rational number, and so is what an operation would give if it were
exact.  Rounding drops bits from the exact result until 53 are left, or fewer near zero, but keeps a
trace of them: whether they are more than a half of the last bit that is left, or less, or neither.
So the mantissa moves to the nearer of its two neighbours, to the even one in the middle, and the
result is the nearest double of the exact one.  That it is about as close to it as doubles are to
each other is all that is needed where an error is only bounded.
-/

namespace Metronome.Number

open Float.Model (UnpackedFloat Format totalExponent)
open Float.Model.UnpackedFloat

variable {m n : Nat} {e f : Int} {q : ℚ} {sign : Sign}

/-! ### Scaled numbers -/

/-- The number with a mantissa and an exponent. -/
def scaled (m : Nat) (e : Int) : ℚ :=
  m * 2 ^ e

@[simp] theorem scaled_zero (e : Int) : scaled 0 e = 0 := by
  rw [scaled, Nat.cast_zero, zero_mul]

theorem scaled_nonneg (m : Nat) (e : Int) : 0 ≤ scaled m e :=
  mul_nonneg (Nat.cast_nonneg m) (two_zpow_pos e).le

theorem scaled_pos (pos : 0 < m) (e : Int) : 0 < scaled m e :=
  mul_pos (Nat.cast_pos.2 pos) (two_zpow_pos e)

theorem pos_of_scaled_pos (pos : 0 < scaled m e) : 0 < m := by
  rw [Nat.pos_iff_ne_zero]
  rintro rfl
  exact absurd pos (by simp)

theorem scaled_le_scaled (le : m ≤ n) (e : Int) : scaled m e ≤ scaled n e :=
  mul_le_mul_of_nonneg_right (Nat.cast_le.2 le) (two_zpow_pos e).le

theorem scaled_mul (m n : Nat) (e f : Int) : scaled (m * n) (e + f) = scaled m e * scaled n f := by
  rw [scaled, scaled, scaled, zpow_add₀ (by norm_num)]
  push_cast
  ring

/-- Bits at the end of a mantissa count for the exponent. -/
theorem scaled_shift (m k : Nat) (e : Int) : scaled (m * 2 ^ k) e = scaled m (e + k) := by
  rw [scaled, scaled, zpow_add₀ (by norm_num), zpow_natCast]
  push_cast
  ring

/-- A mantissa and an exponent in the form that doubles have, however large the exponent is: the
mantissa has 53 bits, or fewer with the least exponent. -/
structure Canonical (m : Nat) (e : Int) : Prop where
  high : m < 2 ^ 53
  least : -1074 ≤ e
  full : e = -1074 ∨ 2 ^ 52 ≤ m

/-- A bound of the distance between neighbouring doubles around a number. -/
def spacing (q : ℚ) : ℚ :=
  max (q / 2 ^ 52) (2 ^ (-1074 : Int))

/-- The float with a mantissa and an exponent, which is a zero if the mantissa is. -/
def float (sign : Sign) (m : Nat) (e : Int) : UnpackedFloat :=
  if isZero : m = 0 then .zero sign else .finite sign m e (Nat.pos_of_ne_zero isZero)

theorem float_zero (sign : Sign) (e : Int) : float sign 0 e = .zero sign :=
  dif_pos rfl

theorem float_of_pos (pos : 0 < m) (sign : Sign) (e : Int) :
    float sign m e = .finite sign m e pos :=
  dif_neg (Nat.ne_of_gt pos)

/-- A float that a number has been rounded to: it is in the form that doubles have, and about as
close to the number as doubles are to each other. -/
def Rounds (sign : Sign) (q : ℚ) (rounded : UnpackedFloat) : Prop :=
  ∃ m e, Canonical m e ∧ rounded = float sign m e ∧ |scaled m e - q| ≤ spacing q

/-- The float that a magnitude has to be rounded to: it has the form of doubles and the value of the
nearest one, whatever its exponent is. -/
def RoundsEven (sign : Sign) (q : ℚ) (rounded : UnpackedFloat) : Prop :=
  ∃ m e, Canonical m e ∧ rounded = float sign m e ∧ scaled m e = nearestDouble q

/-- The nearest double is as close as doubles are to each other. -/
theorem RoundsEven.rounds {rounded : UnpackedFloat} (even : RoundsEven sign q rounded)
    (nonneg : 0 ≤ q) : Rounds sign q rounded := by
  obtain ⟨m, e, canonical, same, nearest⟩ := even
  refine ⟨m, e, canonical, same, ?_⟩
  rw [nearest]
  rcases nonneg.eq_or_lt with rfl | pos
  · rw [nearestDouble_zero, sub_zero, abs_zero]
    exact (two_zpow_pos _).le.trans (le_max_right ..)
  · have unit := two_zpow_pos (unitExponent q)
    refine (nearestDouble_near q).trans ((half_le_self unit.le).trans ?_)
    rw [spacing, le_max_iff]
    by_cases least : unitExponent q = -1074
    · exact Or.inr (by rw [least])
    · have full := unit_le_abs pos.ne' least
      rw [abs_of_pos pos] at full
      refine Or.inl ?_
      rwa [le_div_iff₀ (by norm_num), mul_comm]

/-- A magnitude with a sign. -/
def signed : Sign → ℚ → ℚ
  | .positive, q => q
  | .negative, q => -q

@[simp] theorem signed_zero (sign : Sign) : signed sign 0 = 0 := by
  cases sign
  · exact neg_zero
  · rfl

theorem signed_neg (sign : Sign) (q : ℚ) : signed (-sign) q = -signed sign q := by
  cases sign
  · exact (neg_neg q).symm
  · rfl

theorem abs_signed (sign : Sign) (q : ℚ) : |signed sign q| = |q| := by
  cases sign
  · exact abs_neg q
  · rfl

theorem signed_scaled (sign : Sign) (m : Nat) (e : Int) :
    signed sign (scaled m e) = (sign.apply m : ℤ) * 2 ^ e := by
  cases sign
  · rw [signed, scaled, Sign.apply, Int.cast_neg, Int.cast_natCast, neg_mul]
  · rw [signed, scaled, Sign.apply, Int.cast_natCast]

/-- The float that an operation has to give whose exact result is a number.  A zero may have either
sign. -/
def Correct (q : ℚ) (rounded : UnpackedFloat) : Prop :=
  ∃ sign, signed sign |q| = q ∧ RoundsEven sign |q| rounded

/-- The nearest double of a double is the same. -/
theorem nearestDouble_scaled (canonical : Canonical m e) :
    nearestDouble (scaled m e) = scaled m e := by
  have short : |(m : ℤ)| < 2 ^ 53 := by
    rw [Nat.abs_cast]
    exact_mod_cast canonical.high
  exact nearestDouble_eq_self (k := m) short canonical.least

/-- Rounding keeps what is in the form of doubles. -/
theorem roundsEven_float (canonical : Canonical m e) (sign : Sign) :
    RoundsEven sign (scaled m e) (float sign m e) :=
  ⟨m, e, canonical, rfl, (nearestDouble_scaled canonical).symm⟩

theorem roundsEven_zero (sign : Sign) : RoundsEven sign 0 (.zero sign) := by
  have even := roundsEven_float ⟨by decide, le_rfl, Or.inl rfl⟩ sign (m := 0)
  rwa [scaled_zero, float_zero] at even

theorem correct_float (canonical : Canonical m e) (sign : Sign) :
    Correct (signed sign (scaled m e)) (float sign m e) := by
  refine ⟨sign, ?_, ?_⟩ <;> rw [abs_signed, abs_of_nonneg (scaled_nonneg m e)]
  exact roundsEven_float canonical sign

theorem correct_zero (sign : Sign) : Correct 0 (.zero sign) := by
  refine ⟨sign, ?_, ?_⟩ <;> rw [abs_zero]
  · exact signed_zero sign
  · exact roundsEven_zero sign

/-! ### Dropped digits -/

/-- A number without what comes after its point is a natural number, and what came there is compared
with a half by an accuracy. -/
def Truncates (x : ℚ) (m : Nat) : Accuracy → Prop
  | .exact => x = m
  | .inexact .lt => m < x ∧ x < m + 1 / 2
  | .inexact .eq => x = m + 1 / 2
  | .inexact .gt => m + 1 / 2 < x ∧ x < m + 1

variable {x : ℚ} {accuracy : Accuracy} {extended : ExtendedMantissa}

/-- Nothing is dropped from a number that is given by its mantissa. -/
theorem truncates_scaled (m : Nat) (e : Int) : Truncates (scaled m e / 2 ^ e) m .exact :=
  mul_div_cancel_right₀ _ (two_zpow_pos e).ne'

theorem Truncates.bounds (truncates : Truncates x m accuracy) : (m : ℚ) ≤ x ∧ x < m + 1 := by
  rcases accuracy with _ | (_ | _ | _)
  · exact ⟨truncates.ge, truncates.trans_lt (by linarith)⟩
  · exact ⟨truncates.1.le, truncates.2.trans (by linarith)⟩
  · have half : x = m + 1 / 2 := truncates
    constructor <;> linarith
  · have above := truncates.1
    exact ⟨by linarith, truncates.2⟩

/-- The accuracy says to which side a truncated number is rounded. -/
theorem Truncates.roundToNearestEven (truncates : Truncates x m accuracy) :
    halfEven x = (accuracy.roundToNearestEven m : Nat) := by
  rcases accuracy with _ | (_ | _ | _)
  · rw [show x = (m : ℤ) from truncates]
    exact halfEven_intCast m
  · obtain ⟨low, high⟩ := truncates
    refine halfEven_of_near ?_
    rw [Accuracy.roundToNearestEven, Int.cast_natCast, abs_lt]
    constructor <;> linarith
  · rw [show x = (m : ℤ) + 1 / 2 from truncates, halfEven_half]
    rfl
  · obtain ⟨low, high⟩ := truncates
    refine halfEven_of_near ?_
    rw [Accuracy.roundToNearestEven, Int.cast_natCast, Nat.cast_succ, abs_lt]
    constructor <;> linarith

theorem shiftRightOne_even (half : Nat) (guard sticky : Bool) :
    (ExtendedMantissa.mk (2 * half) guard sticky).shiftRightOne =
      ⟨half, false, guard || sticky⟩ := by
  simp [ExtendedMantissa.shiftRightOne]

theorem shiftRightOne_odd (half : Nat) (guard sticky : Bool) :
    (ExtendedMantissa.mk (2 * half + 1) guard sticky).shiftRightOne =
      ⟨half, true, guard || sticky⟩ := by
  have quotient : (2 * half + 1) / 2 = half := by omega
  simp [ExtendedMantissa.shiftRightOne, quotient]

/-- Half of a number keeps a trace of the digits that were dropped before. -/
theorem Truncates.shiftRightOne (truncates : Truncates x extended.mantissa extended.accuracy) :
    Truncates (x / 2) extended.shiftRightOne.mantissa extended.shiftRightOne.accuracy := by
  obtain ⟨m, guard, sticky⟩ := extended
  obtain ⟨half, rfl | rfl⟩ := Nat.even_or_odd' m
  all_goals
    simp only [shiftRightOne_even, shiftRightOne_odd]
    cases guard <;> cases sticky <;>
      simp only [ExtendedMantissa.accuracy, Truncates, Bool.or_false, Bool.or_true]
        at truncates ⊢ <;>
      push_cast at truncates <;>
      first | linarith | constructor <;> linarith

/-- Shifting a mantissa keeps a trace of all digits that it drops. -/
theorem Truncates.shiftRight (truncates : Truncates x extended.mantissa extended.accuracy)
    (amount : Nat) : Truncates (x / 2 ^ amount) (extended >>> amount).mantissa
      (extended >>> amount).accuracy := by
  induction amount with
  | zero =>
      rw [pow_zero, div_one]
      exact truncates
  | succ amount ih =>
      rw [pow_succ, ← div_div]
      exact ih.shiftRightOne

theorem accuracy_of (m : Nat) (accuracy : Accuracy) :
    (ExtendedMantissa.ofMantissaAndAccuracy m accuracy).accuracy = accuracy := by
  rcases accuracy with _ | (_ | _ | _) <;> rfl

/-- The remainder of a division says what the quotient does not. -/
theorem truncates_div (pos : 0 < n) :
    Truncates ((m : ℚ) / n) (m / n) (accuracyOfFraction (m % n) n) := by
  have nCast : (0 : ℚ) < n := Nat.cast_pos.2 pos
  have split : (m : ℚ) / n = (m / n : Nat) + (m % n : Nat) / (n : ℚ) := by
    rw [div_eq_iff nCast.ne', add_mul, div_mul_cancel₀ _ nCast.ne']
    exact_mod_cast (Nat.div_add_mod' m n).symm
  have less : ((m % n : Nat) : ℚ) / n < 1 := by
    rw [div_lt_one nCast]
    exact_mod_cast Nat.mod_lt m pos
  rw [split, accuracyOfFraction]
  split_ifs with exact
  · rw [exact, Nat.cast_zero, zero_div, add_zero]
    rfl
  · have above : (0 : ℚ) < (m % n : Nat) / n :=
      div_pos (Nat.cast_pos.2 (Nat.pos_of_ne_zero exact)) nCast
    rcases order : compare (2 * (m % n)) n with _ | _ | _
    · have below : ((m % n : Nat) : ℚ) / n < 1 / 2 := by
        rw [div_lt_div_iff₀ nCast two_pos, mul_comm, one_mul]
        exact_mod_cast Nat.compare_eq_lt.1 order
      constructor <;> linarith
    · have middle : ((m % n : Nat) : ℚ) / n = 1 / 2 := by
        rw [div_eq_div_iff nCast.ne' two_ne_zero, mul_comm, one_mul]
        exact_mod_cast Nat.compare_eq_eq.1 order
      rw [middle]
      rfl
    · have past : 1 / 2 < ((m % n : Nat) : ℚ) / n := by
        rw [div_lt_div_iff₀ two_pos nCast, mul_comm _ 2, one_mul]
        exact_mod_cast Nat.compare_eq_gt.1 order
      constructor <;> linarith

/-! ### Rounding -/

/-- The exponent that rounding leaves a mantissa with. -/
theorem shifted_exponent (enough : e ≤ max ((m.log2 : Int) + 1 + e - 53) (-1074))
    (accuracy : Accuracy) : ∃ shift : Nat,
    (shift : Int) + e = max ((m.log2 : Int) + 1 + e - 53) (-1074) ∧
      shiftToTargetExponent .binary64 m e accuracy =
        (ExtendedMantissa.ofMantissaAndAccuracy m accuracy >>> shift, e + shift) := by
  refine ⟨(max ((m.log2 : Int) + 1 + e - 53) (-1074) - e).toNat, by omega, ?_⟩
  rw [shiftToTargetExponent, targetExponent_eq, shiftToExponent]

/-- What is left of a mantissa after it has been shifted is in the form that doubles have. -/
theorem canonical_shifted {shift : Nat}
    (target : (shift : Int) + e = max ((m.log2 : Int) + 1 + e - 53) (-1074)) :
    Canonical (m / 2 ^ shift) (e + shift) := by
  have bits := Nat.lt_log2_self (n := m)
  refine ⟨?_, by omega, ?_⟩
  · rw [Nat.div_lt_iff_lt_mul (Nat.two_pow_pos _), ← Nat.pow_add]
    exact Nat.lt_of_lt_of_le bits (Nat.pow_le_pow_right (by omega) (by omega))
  · rcases Int.le_total (m.log2 + 1 + e - 53) (-1074) with small | large
    · exact Or.inl (by omega)
    · by_cases least : e + shift = -1074
      · exact Or.inl least
      · have exact : m.log2 = 52 + shift := by omega
        have nonzero : m ≠ 0 := by
          rintro rfl
          exact absurd exact (by simp; omega)
        refine Or.inr ?_
        rw [Nat.le_div_iff_mul_le (Nat.two_pow_pos _), ← Nat.pow_add, ← exact]
        exact Nat.log2_self_le nonzero

/-- A mantissa with 53 bits or the least exponent has no bits to be filled up. -/
theorem enough_of_long (long : e ≤ -1074 ∨ 2 ^ 52 ≤ m) :
    e ≤ max ((m.log2 : Int) + 1 + e - 53) (-1074) := by
  rcases long with least | full
  · omega
  · have bits : 52 ≤ m.log2 := (Nat.le_log2 (by omega)).2 full
    omega

/-- A number is measured in the units of the mantissa that it begins with, if that has the form of
doubles. -/
theorem nearestDouble_of_truncates (pos : 0 < q) (canonical : Canonical m e)
    (truncates : Truncates (q / 2 ^ e) m accuracy) :
    nearestDouble q = scaled (accuracy.roundToNearestEven m) e := by
  have unit := two_zpow_pos e
  obtain ⟨low, high⟩ := truncates.bounds
  rw [le_div_iff₀ unit] at low
  rw [div_lt_iff₀ unit] at high
  have measured : unitExponent q = e := by
    refine unitExponent_eq pos (high.trans_le ?_) canonical.least
      (canonical.full.imp_right fun full => le_trans ?_ low)
    · exact mul_le_mul_of_nonneg_right (by exact_mod_cast canonical.high) unit.le
    · exact mul_le_mul_of_nonneg_right (by exact_mod_cast full) unit.le
  rw [nearestDouble, measured, truncates.roundToNearestEven, Int.cast_natCast, scaled]

/-- A number that begins with a mantissa is rounded to its nearest double. -/
theorem roundWithAccuracy_even (pos : 0 < q) (truncates : Truncates (q / 2 ^ e) m accuracy)
    (enough : e ≤ max ((m.log2 : Int) + 1 + e - 53) (-1074)) (sign : Sign) :
    RoundsEven sign q (roundWithAccuracy .binary64 sign m e accuracy) := by
  obtain ⟨shift, target, shifted⟩ := shifted_exponent enough accuracy
  have canonical := canonical_shifted target
  have dropped : Truncates (q / 2 ^ (e + shift))
      (ExtendedMantissa.ofMantissaAndAccuracy m accuracy >>> shift).mantissa
      (ExtendedMantissa.ofMantissaAndAccuracy m accuracy >>> shift).accuracy := by
    rw [two_zpow_add, mul_comm, ← div_div]
    refine Truncates.shiftRight ?_ shift
    rwa [mantissa_of, accuracy_of]
  obtain ⟨above, below⟩ :=
    roundedMantissa_bounds (ExtendedMantissa.ofMantissaAndAccuracy m accuracy >>> shift)
  have mantissa := mantissa_shiftRight (ExtendedMantissa.ofMantissaAndAccuracy m accuracy) shift
  rw [mantissa_of] at mantissa
  have nearest := nearestDouble_of_truncates pos (mantissa ▸ canonical) dropped
  rw [← ExtendedMantissa.roundedMantissa] at nearest
  rw [mantissa] at above below
  unfold roundWithAccuracy
  rw [shifted]
  dsimp only
  generalize (ExtendedMantissa.ofMantissaAndAccuracy m accuracy >>> shift).roundedMantissa =
    result at above below nearest
  by_cases fits : result < 2 ^ 53
  · rw [shift_none fits canonical.least]
    refine ⟨result, e + shift, ⟨fits, canonical.least, ?_⟩, rfl, nearest.symm⟩
    exact canonical.full.imp_right fun full => by omega
  · -- The carry leaves a power of two, which is shifted without a loss.
    have full := canonical.high
    obtain rfl : result = 2 ^ 53 := by omega
    rw [shift_once (by omega) (by omega) (by have := canonical.least; omega)]
    refine ⟨2 ^ 52, e + shift + 1, ⟨by omega, by have := canonical.least; omega, Or.inr le_rfl⟩,
      rfl, ?_⟩
    rw [nearest, show 2 ^ 53 = 2 ^ 52 * 2 ^ 1 by norm_num, scaled_shift]
    rfl

/-! ### Operations -/

/-- The length of a mantissa that is moved up. -/
theorem log2_mul_two_pow (pos : 0 < m) (k : Nat) : (m * 2 ^ k).log2 = m.log2 + k := by
  obtain ⟨low, high⟩ := (Nat.log2_eq_iff (Nat.ne_of_gt pos)).1 rfl
  refine log2_eq ?_ ?_
  · rw [Nat.pow_add]
    exact Nat.mul_le_mul_right _ low
  · rw [Nat.add_right_comm, Nat.pow_add]
    exact Nat.mul_lt_mul_of_pos_right high (Nat.two_pow_pos k)

/-- A mantissa and an exponent are rounded to the double nearest to their number. -/
theorem round_even (pos : 0 < m) (e : Int) (sign : Sign) :
    RoundsEven sign (scaled m e) (round .binary64 sign m e) := by
  rw [UnpackedFloat.round, targetExponent_eq, decreaseExponent, Nat.shiftLeft_eq]
  generalize amount : (e - max ((m.log2 : Int) + 1 + e - 53) (-1074)).toNat = shift
  have same : scaled (m * 2 ^ shift) (e - shift) = scaled m e := by
    rw [scaled_shift, sub_add_cancel]
  have log := log2_mul_two_pow pos shift
  rw [← same]
  refine roundWithAccuracy_even (scaled_pos (Nat.mul_pos pos (Nat.two_pow_pos _)) _)
    (truncates_scaled ..) ?_ sign
  rw [log]
  omega

/-- A mantissa with a sign of its own is rounded to the double nearest to its number. -/
theorem normalize_correct (d : Int) (e : Int) (zeroSign : Sign) :
    Correct (d * 2 ^ e) (UnpackedFloat.normalize .binary64 d e zeroSign) := by
  have magnitude : |(d * 2 ^ e : ℚ)| = scaled d.natAbs e := by
    rw [abs_mul, abs_of_pos (two_zpow_pos e), scaled, Nat.cast_natAbs, Int.cast_abs]
  rw [UnpackedFloat.normalize]
  rcases Int.lt_trichotomy d 0 with below | rfl | above
  · have opposite : (-d).toNat = d.natAbs := by omega
    have negative : (d * 2 ^ e : ℚ) ≤ 0 :=
      mul_nonpos_of_nonpos_of_nonneg (by exact_mod_cast below.le) (two_zpow_pos e).le
    rw [Int.compare_eq_lt.2 below, opposite]
    refine ⟨.negative, by rw [signed, abs_of_nonpos negative, neg_neg], ?_⟩
    rw [magnitude]
    exact round_even (by omega) e .negative
  · rw [Int.cast_zero, zero_mul]
    exact correct_zero zeroSign
  · have same : d.toNat = d.natAbs := by omega
    have positive : (0 : ℚ) ≤ d * 2 ^ e :=
      mul_nonneg (by exact_mod_cast above.le) (two_zpow_pos e).le
    rw [Int.compare_eq_gt.2 above, same]
    refine ⟨.positive, by rw [signed, abs_of_nonneg positive], ?_⟩
    rw [magnitude]
    exact round_even (by omega) e .positive

/-- A sum is the double nearest to the sum of the numbers. -/
theorem add_correct (first : Canonical m e) (second : Canonical n f) (s t : Sign) :
    Correct (signed s (scaled m e) + signed t (scaled n f))
      (add .binary64 (float s m e) (float t n f)) := by
  rcases Nat.eq_zero_or_pos m with rfl | mPos
  · rw [float_zero, scaled_zero, signed_zero, zero_add]
    rcases Nat.eq_zero_or_pos n with rfl | nPos
    · rw [float_zero, scaled_zero, signed_zero, add]
      split_ifs
      · exact correct_zero s
      · exact correct_zero .positive
    · have correct := correct_float second t
      rw [float_of_pos nPos] at correct ⊢
      exact correct
  · rcases Nat.eq_zero_or_pos n with rfl | nPos
    · have correct := correct_float first s
      rw [float_of_pos mPos] at correct ⊢
      rw [float_zero, scaled_zero, signed_zero, add_zero]
      exact correct
    · -- Both mantissas are moved to the smaller exponent, and added as integers.
      obtain ⟨g, lower⟩ : ∃ g, min e f = g := ⟨_, rfl⟩
      rw [float_of_pos mPos, float_of_pos nPos, add, decreaseExponent, decreaseExponent, lower]
      obtain ⟨j, rfl⟩ : ∃ j : Nat, e = g + j := ⟨(e - g).toNat, by omega⟩
      obtain ⟨k, rfl⟩ : ∃ k : Nat, f = g + k := ⟨(f - g).toNat, by omega⟩
      dsimp only
      rw [add_sub_cancel_left, add_sub_cancel_left, Int.toNat_natCast, Int.toNat_natCast,
        Nat.shiftLeft_eq, Nat.shiftLeft_eq, ← scaled_shift, ← scaled_shift, signed_scaled,
        signed_scaled, ← add_mul, ← Int.cast_add]
      exact normalize_correct _ g .positive

/-- A difference is the sum with the number of the other sign. -/
theorem sub_eq_add (m n : Nat) (e f : Int) (s t : Sign) :
    sub .binary64 (float s m e) (float t n f) = add .binary64 (float s m e) (float (-t) n f) := by
  have opposite : ∀ k : Int, (-t).apply k = -t.apply k := by
    cases t <;> intro k
    · exact (neg_neg k).symm
    · rfl
  rcases Nat.eq_zero_or_pos m with rfl | mPos <;> rcases Nat.eq_zero_or_pos n with rfl | nPos
  · rw [float_zero, float_zero, float_zero]
    rfl
  · rw [float_zero, float_of_pos nPos, float_of_pos nPos]
    rfl
  · rw [float_zero, float_zero, float_of_pos mPos]
    rfl
  · rw [float_of_pos mPos, float_of_pos nPos, float_of_pos nPos, sub, add]
    simp only [opposite, Int.sub_eq_add_neg]

/-- A difference is the double nearest to the difference of the numbers. -/
theorem sub_correct (first : Canonical m e) (second : Canonical n f) (s t : Sign) :
    Correct (signed s (scaled m e) - signed t (scaled n f))
      (sub .binary64 (float s m e) (float t n f)) := by
  rw [sub_eq_add, sub_eq_add_neg, ← signed_neg]
  exact add_correct first second s (-t)

/-- A product is the double nearest to the product of the numbers. -/
theorem mul_even (first : Canonical m e) (second : Canonical n f) (s t : Sign) :
    RoundsEven (s * t) (scaled m e * scaled n f)
      (mul .binary64 (float s m e) (float t n f)) := by
  rcases Nat.eq_zero_or_pos m with rfl | mPos <;> rcases Nat.eq_zero_or_pos n with rfl | nPos
  · rw [float_zero, float_zero, scaled_zero, zero_mul]
    exact roundsEven_zero (s * t)
  · rw [float_zero, float_of_pos nPos, scaled_zero, zero_mul]
    exact roundsEven_zero (s * t)
  · rw [float_zero, float_of_pos mPos, scaled_zero, mul_zero]
    exact roundsEven_zero (s * t)
  · rw [float_of_pos mPos, float_of_pos nPos, mul, ← scaled_mul]
    refine roundWithAccuracy_even (scaled_pos (Nat.mul_pos mPos nPos) _) (truncates_scaled ..)
      (enough_of_long ?_) (s * t)
    -- A product is short only if both factors are, and then its exponent is below the least one.
    rcases first.full with rfl | full
    · rcases second.full with rfl | full
      · exact Or.inl (by decide)
      · exact Or.inr (full.trans (Nat.le_mul_of_pos_left n mPos))
    · exact Or.inr (full.trans (Nat.le_mul_of_pos_right m nPos))

/-- The dividend is moved up until the quotient has 53 bits or the least exponent. -/
theorem div_eq_round {s t : Sign} (mPos : 0 < m) (nPos : 0 < n) : ∃ (shift : Nat) (g : Int),
    e = g + shift + f ∧ (g ≤ -1074 ∨ 2 ^ 52 * n ≤ m * 2 ^ shift) ∧
      div .binary64 (.finite s m e mPos) (.finite t n f nPos) =
        roundWithAccuracy .binary64 (s / t) (m * 2 ^ shift / n) g
          (accuracyOfFraction (m * 2 ^ shift % n) n) := by
  have spec : Format.binary64.targetExponent (totalExponent m e - totalExponent n f) =
      max ((m.log2 + 1 + e) - (n.log2 + 1 + f) - 53) (-1074) := rfl
  rw [div, divCore, spec, Nat.shiftLeft_eq]
  generalize target : min (e - f) (max ((m.log2 + 1 + e) - (n.log2 + 1 + f) - 53) (-1074)) = g
  obtain ⟨shift, amount⟩ : ∃ shift : Nat, e - f - g = shift := ⟨(e - f - g).toNat, by omega⟩
  rw [amount, Int.toNat_natCast]
  refine ⟨shift, g, by omega, ?_, rfl⟩
  by_cases small : g ≤ -1074
  · exact Or.inl small
  · have mLow := Nat.log2_self_le (Nat.ne_of_gt mPos)
    have nHigh := Nat.lt_log2_self (n := n)
    refine Or.inr ?_
    calc 2 ^ 52 * n ≤ 2 ^ 52 * 2 ^ (n.log2 + 1) := Nat.mul_le_mul_left _ nHigh.le
      _ = 2 ^ (52 + (n.log2 + 1)) := (Nat.pow_add ..).symm
      _ ≤ 2 ^ (m.log2 + shift) := Nat.pow_le_pow_right (by omega) (by omega)
      _ = 2 ^ m.log2 * 2 ^ shift := Nat.pow_add ..
      _ ≤ m * 2 ^ shift := Nat.mul_le_mul_right _ mLow

/-- A quotient is the double nearest to the quotient of the numbers. -/
theorem div_even (nPos : 0 < n) (s t : Sign) :
    RoundsEven (s / t) (scaled m e / scaled n f)
      (div .binary64 (float s m e) (float t n f)) := by
  rcases Nat.eq_zero_or_pos m with rfl | mPos
  · rw [float_zero, float_of_pos nPos, scaled_zero, zero_div]
    exact roundsEven_zero (s / t)
  · obtain ⟨shift, g, split, long, computed⟩ :=
      div_eq_round (s := s) (t := t) (e := e) (f := f) mPos nPos
    have quotient : scaled m e / scaled n f / 2 ^ g = (m * 2 ^ shift : Nat) / n := by
      have := two_zpow_pos f
      have := two_zpow_pos g
      rw [split, scaled, scaled, zpow_add₀ (by norm_num), two_zpow_add]
      push_cast
      field_simp
    rw [float_of_pos mPos, float_of_pos nPos, computed]
    refine roundWithAccuracy_even (div_pos (scaled_pos mPos e) (scaled_pos nPos f)) ?_
      (enough_of_long (long.imp_right (Nat.le_div_iff_mul_le nPos).2)) (s / t)
    rw [quotient]
    exact truncates_div nPos

/-! ### Packing -/

/-- A number with the least exponent and a mantissa that is not full is kept when it is packed. -/
theorem unpack_pack_least (pos : 0 < m) (short : m < 2 ^ 52) (sign : Sign) :
    (Float.Model.pack (.finite sign m (-1074) pos)).unpack = .finite sign m (-1074) pos := by
  have bits : m.log2 < 52 := (Nat.log2_lt (Nat.ne_of_gt pos)).2 short
  have kept : (BitVec.ofNat 52 m).toNat = m := by
    rw [BitVec.toNat_ofNat, Nat.mod_eq_of_lt short]
  have nonzero : BitVec.ofNat 52 m ≠ 0#52 := by
    intro same
    rw [same] at kept
    exact Nat.ne_of_lt pos kept
  have packed : pack .binary64 (.finite sign m (-1074) pos) =
      packComponents .binary64 sign 0#11 (BitVec.ofNat 52 m) := by
    rw [pack]
    dsimp only
    rw [if_neg (by decide), if_neg (by
      rw [show Format.binary64.mantissaBits = 53 from rfl]
      omega)]
  have unfolded : (Float.Model.pack (.finite sign m (-1074) pos)).unpack =
      unpack .binary64 (pack .binary64 (.finite sign m (-1074) pos)) := rfl
  rw [unfolded, packed, unpack]
  simp only [unpackMantissa_packComponents, unpackExponent_packComponents,
    unpackSign_packComponents, Sign.ofBitVec_toBitVec]
  rw [if_neg (by decide), if_pos trivial, dif_neg nonzero]
  simp only [kept]
  rfl

/-- A number whose exponent is too large is packed as infinite. -/
theorem unpack_pack_large (pos : 0 < m) (large : 971 < e) (sign : Sign) :
    (Float.Model.pack (.finite sign m e pos)).unpack = .infinity sign := by
  have biased : 2 ^ Format.binary64.exponentBits ≤ (e + Format.binary64.exponentBias +
      Format.binary64.mantissaBitsWithoutImplicit).toNat + 1 := by
    have bias : Format.binary64.exponentBias = 1023 := rfl
    have width : Format.binary64.mantissaBitsWithoutImplicit = 52 := rfl
    rw [bias, width]
    norm_num
    omega
  have packed : pack .binary64 (.finite sign m e pos) = packedInfinity .binary64 sign := by
    rw [pack]
    dsimp only
    rw [if_pos biased]
  have unfolded : (Float.Model.pack (.finite sign m e pos)).unpack =
      unpack .binary64 (pack .binary64 (.finite sign m e pos)) := rfl
  rw [unfolded, packed]
  cases sign <;> rfl

/-- A float in the form that doubles have is kept when it is packed, unless its exponent is too
large. -/
theorem unpack_pack_float (canonical : Canonical m e) (sign : Sign) :
    (Float.Model.pack (float sign m e)).unpack =
      if e ≤ 971 then float sign m e else .infinity sign := by
  rw [float]
  by_cases isZero : m = 0
  · obtain rfl : e = -1074 := canonical.full.resolve_right (by omega)
    rw [dif_pos isZero, if_pos (by decide)]
    cases sign <;> rfl
  · have pos := Nat.pos_of_ne_zero isZero
    rw [dif_neg isZero]
    split
    · rename_i bounded
      rcases Nat.lt_or_ge m (2 ^ 52) with short | full
      · obtain rfl : e = -1074 := canonical.full.resolve_right (by omega)
        exact unpack_pack_least pos short sign
      · exact unpack_pack ⟨full, canonical.high, canonical.least, bounded⟩ sign
    · rename_i large
      exact unpack_pack_large pos (by omega) sign

end Metronome.Number
