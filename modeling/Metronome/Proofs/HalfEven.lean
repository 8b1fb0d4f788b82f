/-
Module: Metronome.Proofs.HalfEven
Purpose: The double nearest to a rational number, without a largest one, as a function that is
  monotone and keeps what is a double already.
Trusted boundary: none
Main exports:
  Number.halfEven, Number.unitExponent, Number.nearestDouble, Number.nearestDouble_near,
  Number.nearestDouble_mono, Number.nearestDouble_eq_self
-/
import Mathlib

/-!
A number is measured in units in the last place, which depend on its magnitude alone, and rounded to
a whole number of them, to an even one where two are equally near.  A number of a larger magnitude
is measured in units that are larger or the same, and where they change there is a double that lies
between the numbers and between what they are rounded to.  So rounding is monotone.
-/

namespace Metronome.Number

variable {x y q r : ℚ} {k : ℤ} {e : Int}

theorem two_zpow_pos (e : Int) : (0 : ℚ) < 2 ^ e :=
  zpow_pos (by norm_num) e

theorem two_zpow_add (e : Int) (n : Nat) : (2 : ℚ) ^ (e + n) = 2 ^ n * 2 ^ e := by
  rw [zpow_add₀ (by norm_num), zpow_natCast, mul_comm]

/-! ### Whole numbers -/

/-- The whole number nearest to a number, the even one if there are two. -/
def halfEven (x : ℚ) : ℤ :=
  if Int.fract x < 1 / 2 then ⌊x⌋
  else if Int.fract x = 1 / 2 then ⌊x⌋ + ⌊x⌋ % 2
  else ⌊x⌋ + 1

/-- The nearest whole number is at most a half away, and even if it is a half away. -/
theorem halfEven_spec (x : ℚ) :
    |(halfEven x : ℚ) - x| ≤ 1 / 2 ∧ (|(halfEven x : ℚ) - x| = 1 / 2 → Even (halfEven x)) := by
  have split := Int.floor_add_fract x
  have low := Int.fract_nonneg x
  have high := Int.fract_lt_one x
  rw [halfEven]
  split_ifs with below middle
  · have distance : |(⌊x⌋ : ℚ) - x| = Int.fract x := by
      rw [← abs_of_nonneg low, ← abs_neg]
      congr 1
      linarith
    exact ⟨distance.le.trans below.le, fun half => absurd (distance.symm.trans half) below.ne⟩
  · rcases Int.emod_two_eq_zero_or_one ⌊x⌋ with even | odd
    · rw [even, add_zero, abs_le]
      exact ⟨⟨by linarith, by linarith⟩, fun _ => Int.even_iff.2 even⟩
    · rw [odd, abs_le]
      push_cast
      exact ⟨⟨by linarith, by linarith⟩, fun _ => Int.even_iff.2 (by omega)⟩
  · have above : 1 / 2 < Int.fract x := lt_of_le_of_ne (not_lt.1 below) (Ne.symm middle)
    have distance : |((⌊x⌋ + 1 : ℤ) : ℚ) - x| = 1 - Int.fract x := by
      push_cast
      rw [abs_of_nonneg (by linarith)]
      linarith
    rw [distance]
    exact ⟨by linarith, fun half => absurd half (by linarith)⟩

theorem halfEven_near (x : ℚ) : |(halfEven x : ℚ) - x| ≤ 1 / 2 :=
  (halfEven_spec x).1

/-- No other whole number is as near, or as near and even. -/
theorem halfEven_eq (near : |(k : ℚ) - x| ≤ 1 / 2) (even : |(k : ℚ) - x| = 1 / 2 → Even k) :
    halfEven x = k := by
  obtain ⟨near', even'⟩ := halfEven_spec x
  obtain ⟨low, high⟩ := abs_le.1 near
  obtain ⟨low', high'⟩ := abs_le.1 near'
  have apart : |halfEven x - k| ≤ 1 := by
    have distance : |(halfEven x : ℚ) - k| ≤ 1 := by
      rw [abs_le]
      constructor <;> linarith
    exact_mod_cast distance
  -- Two neighbours are both a half away from what lies between them, and one of them is odd.
  rcases Int.abs_le_one_iff.1 apart with same | next | previous
  · omega
  · have moved : halfEven x = k + 1 := by omega
    have cast : (halfEven x : ℚ) = k + 1 := by exact_mod_cast moved
    have first := even (by rw [abs_of_nonpos (by linarith)]; linarith)
    have second := even' (by rw [abs_of_nonneg (by linarith)]; linarith)
    rw [moved, Int.even_add_one] at second
    exact absurd first second
  · have moved : k = halfEven x + 1 := by omega
    have cast : (k : ℚ) = halfEven x + 1 := by exact_mod_cast moved
    have first := even (by rw [abs_of_nonneg (by linarith)]; linarith)
    have second := even' (by rw [abs_of_nonpos (by linarith)]; linarith)
    rw [moved, Int.even_add_one] at first
    exact absurd second first

theorem halfEven_of_near (near : |(k : ℚ) - x| < 1 / 2) : halfEven x = k :=
  halfEven_eq near.le fun half => absurd half near.ne

@[simp] theorem halfEven_intCast (k : ℤ) : halfEven k = k :=
  halfEven_of_near (by norm_num)

theorem halfEven_half (k : ℤ) : halfEven (k + 1 / 2) = k + k % 2 := by
  rcases Int.emod_two_eq_zero_or_one k with even | odd
  · rw [even, add_zero]
    exact halfEven_eq (by norm_num) fun _ => Int.even_iff.2 even
  · rw [odd]
    exact halfEven_eq (by norm_num) fun _ => Int.even_iff.2 (by omega)

theorem halfEven_neg (x : ℚ) : halfEven (-x) = -halfEven x := by
  have distance : |((-halfEven x : ℤ) : ℚ) - -x| = |(halfEven x : ℚ) - x| := by
    rw [← abs_neg]
    congr 1
    push_cast
    ring
  obtain ⟨near, even⟩ := halfEven_spec x
  refine halfEven_eq (distance.le.trans near) fun half => ?_
  exact (even (distance.symm.trans half)).neg

theorem halfEven_mono (le : x ≤ y) : halfEven x ≤ halfEven y := by
  by_contra less
  obtain ⟨low, high⟩ := abs_le.1 (halfEven_near x)
  obtain ⟨low', high'⟩ := abs_le.1 (halfEven_near y)
  have next : (halfEven y : ℚ) + 1 ≤ halfEven x := by exact_mod_cast not_le.1 less
  have same : x = y := by linarith
  rw [same] at less
  exact less le_rfl

/-! ### Units in the last place -/

/-- The exponent of the unit in the last place that doubles of the magnitude of a number have. -/
def unitExponent (q : ℚ) : Int :=
  max (Int.log 2 |q| - 52) (-1074)

theorem least_le_unitExponent (q : ℚ) : -1074 ≤ unitExponent q :=
  le_max_right ..

@[simp] theorem unitExponent_neg (q : ℚ) : unitExponent (-q) = unitExponent q := by
  rw [unitExponent, unitExponent, abs_neg]

/-- A number is less than `2 ^ 53` of its units. -/
theorem abs_lt_unit (q : ℚ) : |q| < 2 ^ 53 * 2 ^ unitExponent q := by
  calc |q| < 2 ^ (Int.log 2 |q| + 1) := Int.lt_zpow_succ_log_self (by norm_num) _
    _ ≤ 2 ^ (unitExponent q + (53 : Nat)) := by
        refine zpow_le_zpow_right₀ (by norm_num) ?_
        rw [unitExponent]
        omega
    _ = 2 ^ 53 * 2 ^ unitExponent q := two_zpow_add ..

/-- A number is at least `2 ^ 52` of its units, if they are not the smallest ones. -/
theorem unit_le_abs (nonzero : q ≠ 0) (large : unitExponent q ≠ -1074) :
    2 ^ 52 * 2 ^ unitExponent q ≤ |q| := by
  have raised : unitExponent q + (52 : Nat) = Int.log 2 |q| := by
    rw [unitExponent] at large ⊢
    omega
  rw [← two_zpow_add, raised]
  exact Int.zpow_log_le_self (by norm_num) (abs_pos.2 nonzero)

/-- A smaller number has units that are smaller or the same. -/
theorem unitExponent_mono (pos : 0 < q) (le : q ≤ r) : unitExponent q ≤ unitExponent r := by
  have logs : Int.log 2 |q| ≤ Int.log 2 |r| := by
    rw [abs_of_pos pos, abs_of_pos (pos.trans_le le)]
    exact Int.log_mono_right pos le
  rw [unitExponent, unitExponent]
  omega

/-- A number that is less than `2 ^ 53` of some units is measured in no larger ones. -/
theorem unitExponent_le (nonzero : q ≠ 0) (high : |q| < 2 ^ 53 * 2 ^ e) (least : -1074 ≤ e) :
    unitExponent q ≤ e := by
  have log : Int.log 2 |q| < e + (53 : Nat) := by
    rw [← Int.lt_zpow_iff_log_lt (by norm_num) (abs_pos.2 nonzero)]
    exact high.trans_eq (two_zpow_add e 53).symm
  rw [unitExponent]
  omega

/-- The unit of a number is the only one that it can be measured in by 53 bits and no fewer. -/
theorem unitExponent_eq (pos : 0 < q) (high : q < 2 ^ 53 * 2 ^ e) (least : -1074 ≤ e)
    (full : e = -1074 ∨ 2 ^ 52 * 2 ^ e ≤ q) : unitExponent q = e := by
  refine le_antisymm (unitExponent_le pos.ne' (by rwa [abs_of_pos pos]) least) ?_
  rcases full with rfl | full
  · exact least_le_unitExponent q
  · have log : e + (52 : Nat) ≤ Int.log 2 |q| := by
      rw [← Int.zpow_le_iff_le_log (by norm_num) (abs_pos.2 pos.ne'), abs_of_pos pos]
      exact (two_zpow_add e 52).trans_le full
    rw [unitExponent]
    omega

/-! ### Doubles -/

/-- The double nearest to a number, the one with the even mantissa if there are two.  There is no
largest double here. -/
def nearestDouble (q : ℚ) : ℚ :=
  halfEven (q / 2 ^ unitExponent q) * 2 ^ unitExponent q

theorem nearestDouble_zero : nearestDouble 0 = 0 := by
  have zero : halfEven 0 = 0 := halfEven_intCast 0
  rw [nearestDouble, zero_div, zero, Int.cast_zero, zero_mul]

theorem nearestDouble_neg (q : ℚ) : nearestDouble (-q) = -nearestDouble q := by
  rw [nearestDouble, nearestDouble, unitExponent_neg, neg_div, halfEven_neg, Int.cast_neg, neg_mul]

/-- The nearest double is at most half a unit away. -/
theorem nearestDouble_near (q : ℚ) : |nearestDouble q - q| ≤ 2 ^ unitExponent q / 2 := by
  have unit := two_zpow_pos (unitExponent q)
  have units : nearestDouble q - q =
      (halfEven (q / 2 ^ unitExponent q) - q / 2 ^ unitExponent q) * 2 ^ unitExponent q := by
    rw [nearestDouble, sub_mul, div_mul_cancel₀ _ unit.ne']
  calc |nearestDouble q - q| =
        |(halfEven (q / 2 ^ unitExponent q) : ℚ) - q / 2 ^ unitExponent q| *
          2 ^ unitExponent q := by rw [units, abs_mul, abs_of_pos unit]
    _ ≤ 1 / 2 * 2 ^ unitExponent q :=
        mul_le_mul_of_nonneg_right (halfEven_near _) unit.le
    _ = 2 ^ unitExponent q / 2 := by ring

/-- A number that is not below a whole number of its units is not rounded to less. -/
theorem le_nearestDouble (low : k * 2 ^ unitExponent q ≤ q) :
    k * 2 ^ unitExponent q ≤ nearestDouble q := by
  have unit := two_zpow_pos (unitExponent q)
  refine mul_le_mul_of_nonneg_right ?_ unit.le
  have whole : k ≤ halfEven (q / 2 ^ unitExponent q) := by
    rw [← halfEven_intCast k]
    exact halfEven_mono ((le_div_iff₀ unit).2 low)
  exact_mod_cast whole

theorem nearestDouble_le (high : q ≤ k * 2 ^ unitExponent q) :
    nearestDouble q ≤ k * 2 ^ unitExponent q := by
  have unit := two_zpow_pos (unitExponent q)
  refine mul_le_mul_of_nonneg_right ?_ unit.le
  have whole : halfEven (q / 2 ^ unitExponent q) ≤ k := by
    rw [← halfEven_intCast k]
    exact halfEven_mono ((div_le_iff₀ unit).2 high)
  exact_mod_cast whole

theorem nearestDouble_nonneg (nonneg : 0 ≤ q) : 0 ≤ nearestDouble q := by
  have low := le_nearestDouble (q := q) (k := 0) (by simpa using nonneg)
  simpa using low

/-- If the units are not the smallest ones, the nearest double has at least `2 ^ 52` of them. -/
theorem nearestDouble_full (pos : 0 < q) (large : unitExponent q ≠ -1074) :
    ∃ m : ℕ, 2 ^ 52 ≤ m ∧ nearestDouble q = m * 2 ^ unitExponent q := by
  have unit := two_zpow_pos (unitExponent q)
  have full := unit_le_abs pos.ne' large
  rw [abs_of_pos pos, ← le_div_iff₀ unit] at full
  have whole : 2 ^ 52 ≤ halfEven (q / 2 ^ unitExponent q) := by
    rw [← halfEven_intCast (2 ^ 52)]
    exact halfEven_mono (by exact_mod_cast full)
  obtain ⟨m, same⟩ := Int.eq_ofNat_of_zero_le (le_trans (by norm_num) whole)
  refine ⟨m, by exact_mod_cast same ▸ whole, ?_⟩
  rw [nearestDouble, same, Int.cast_natCast]

theorem nearestDouble_mono_of_pos (pos : 0 < q) (le : q ≤ r) :
    nearestDouble q ≤ nearestDouble r := by
  rcases (unitExponent_mono pos le).lt_or_eq with less | same
  · -- `2 ^ 53` of the smaller units are at most `2 ^ 52` of the larger ones.
    have large : unitExponent r ≠ -1074 := by
      have := least_le_unitExponent q
      omega
    have rPos := pos.trans_le le
    have units : (2 : ℚ) ^ 53 * 2 ^ unitExponent q ≤ 2 ^ 52 * 2 ^ unitExponent r := by
      rw [← two_zpow_add, ← two_zpow_add]
      exact zpow_le_zpow_right₀ (by norm_num) (by omega)
    have below := abs_lt_unit q
    have above := unit_le_abs rPos.ne' large
    rw [abs_of_pos pos] at below
    rw [abs_of_pos rPos] at above
    have high := nearestDouble_le (q := q) (k := 2 ^ 53) (by push_cast; exact below.le)
    have low := le_nearestDouble (q := r) (k := 2 ^ 52) (by push_cast; exact above)
    push_cast at high low
    exact high.trans (units.trans low)
  · have unit := two_zpow_pos (unitExponent r)
    rw [nearestDouble, nearestDouble, same]
    refine mul_le_mul_of_nonneg_right ?_ unit.le
    exact_mod_cast halfEven_mono (div_le_div_of_nonneg_right le unit.le)

/-- Rounding is monotone. -/
theorem nearestDouble_mono (le : q ≤ r) : nearestDouble q ≤ nearestDouble r := by
  rcases lt_or_ge 0 q with pos | qNonpos
  · exact nearestDouble_mono_of_pos pos le
  · have qRounded : nearestDouble q ≤ 0 := by
      have opposite := nearestDouble_nonneg (neg_nonneg.2 qNonpos)
      rwa [nearestDouble_neg, neg_nonneg] at opposite
    rcases le_or_gt 0 r with rNonneg | rNeg
    · exact qRounded.trans (nearestDouble_nonneg rNonneg)
    · have opposite := nearestDouble_mono_of_pos (neg_pos.2 rNeg) (neg_le_neg le)
      rwa [nearestDouble_neg, nearestDouble_neg, neg_le_neg_iff] at opposite

/-- What has 53 bits and no exponent below the least one is a double, and is kept. -/
theorem nearestDouble_eq_self (short : |k| < 2 ^ 53) (least : -1074 ≤ e) :
    nearestDouble (k * 2 ^ e) = k * 2 ^ e := by
  rcases eq_or_ne k 0 with rfl | nonzero
  · rw [Int.cast_zero, zero_mul, nearestDouble_zero]
  · have unit := two_zpow_pos (unitExponent (k * 2 ^ e))
    have fits : unitExponent (k * 2 ^ e) ≤ e := by
      have bits : |(k : ℚ)| < 2 ^ 53 := by exact_mod_cast short
      refine unitExponent_le (mul_ne_zero (Int.cast_ne_zero.2 nonzero) (two_zpow_pos e).ne') ?_ least
      rw [abs_mul, abs_of_pos (two_zpow_pos e)]
      exact mul_lt_mul_of_pos_right bits (two_zpow_pos e)
    obtain ⟨shift, split⟩ : ∃ shift : Nat, e = unitExponent (k * 2 ^ e) + shift :=
      ⟨(e - unitExponent (k * 2 ^ e)).toNat, by omega⟩
    have whole : (k * 2 ^ e : ℚ) / 2 ^ unitExponent (k * 2 ^ e) = (k * 2 ^ shift : ℤ) := by
      rw [div_eq_iff unit.ne']
      nth_rewrite 1 [split]
      rw [two_zpow_add]
      push_cast
      ring
    rw [nearestDouble, whole, halfEven_intCast, ← whole, div_mul_cancel₀ _ unit.ne']

/-- Natural numbers below `2 ^ 53` are kept. -/
theorem nearestDouble_natCast {n : ℕ} (short : n < 2 ^ 53) : nearestDouble n = n := by
  have bits : |(n : ℤ)| < 2 ^ 53 := by
    rw [Nat.abs_cast]
    exact_mod_cast short
  have self := nearestDouble_eq_self (e := 0) bits (by norm_num)
  simpa using self

theorem nearestDouble_one : nearestDouble 1 = 1 := by
  exact_mod_cast nearestDouble_natCast (n := 1) (by norm_num)

theorem one_le_nearestDouble {n : ℕ} (pos : 1 ≤ n) : 1 ≤ nearestDouble n := by
  rw [← nearestDouble_one]
  exact nearestDouble_mono (by exact_mod_cast pos)

end Metronome.Number
