/-
Module: Metronome.Proofs.Arithmetic
Purpose: Operations on finite doubles give the nearest doubles of their exact results, in the order
  of the exact results.
Trusted boundary: none
Main exports:
  Number.extent, Number.Definite, Number.compare_definite, Number.Result, Number.Result.le,
  Number.Result.isFinite, Number.add_result, Number.sub_result, Number.mul_result,
  Number.div_result, Number.ofWord_result, Number.le_iff_value, Number.value_mem_of_inside,
  Number.value_half, Number.toWord_le_of_not_lt
-/
import Mathlib
import Metronome.Proofs.Value

/-!
A finite double is a rational number with a sign.  An operation on two of them gives the nearest
double of the exact result, or an infinity where that is too large for a double.  Since rounding is
monotone and comparisons are exact, what is computed from numbers in some order comes in the order
that the exact results have.
-/

namespace Metronome.Number

open Float.Model (UnpackedFloat Format)
open Float.Model.UnpackedFloat

variable {m n : Nat} {e f : Int} {q r : ℚ} {x y : Float} {a b : UnpackedFloat}

/-! ### Signed values -/

/-- The number that a float is, in the order of the floats.  NaN counts as zero. -/
def extent : UnpackedFloat → ℚ
  | .infinity sign => signed sign limit
  | other => floatValue other

/-- A float that a double can be, apart from NaN. -/
inductive Definite : UnpackedFloat → Prop
  | float {m : Nat} {e : Int} (sign : Sign) (canonical : Canonical m e) (bounded : e ≤ 971) :
      Definite (float sign m e)
  | infinity (sign : Sign) : Definite (.infinity sign)

theorem extent_float (sign : Sign) (m : Nat) (e : Int) :
    extent (float sign m e) = signed sign (scaled m e) := by
  rcases Nat.eq_zero_or_pos m with rfl | pos
  · rw [float_zero, scaled_zero, signed_zero]
    rfl
  · rw [float_of_pos pos]
    cases sign <;> rfl

/-- The value of a double with a sign. -/
theorem value_of_unpack_float {sign : Sign} (unpacked : x.toModel.unpack = float sign m e) :
    value x = signed sign (scaled m e) := by
  rw [← extent_float, ← unpacked, value]
  rcases Nat.eq_zero_or_pos m with rfl | pos
  · rw [unpacked, float_zero]
    rfl
  · rw [unpacked, float_of_pos pos]
    rfl

/-- A finite double is in the form of doubles. -/
theorem unpack_float_of_isFinite (finite : x.isFinite = true) :
    ∃ sign m e, Canonical m e ∧ e ≤ 971 ∧ x.toModel.unpack = float sign m e := by
  rcases unpack_of_isFinite finite with ⟨sign, unpacked⟩ |
    ⟨sign, m, e, pos, canonical, bounded, unpacked⟩
  · rw [← float_zero sign (-1074)] at unpacked
    exact ⟨sign, 0, -1074, ⟨by decide, le_rfl, Or.inl rfl⟩, by decide, unpacked⟩
  · rw [← float_of_pos pos] at unpacked
    exact ⟨sign, m, e, canonical, bounded, unpacked⟩

theorem isFinite_float (sign : Sign) (m : Nat) (e : Int) : (float sign m e).isFinite = true := by
  rcases Nat.eq_zero_or_pos m with rfl | pos
  · rw [float_zero]
    rfl
  · rw [float_of_pos pos]
    rfl

theorem Nonnegative.isFinite (nonneg : Nonnegative x) : x.isFinite = true := by
  obtain ⟨m, e, -, -, unpacked⟩ := nonneg
  change UnpackedFloat.isFinite x.toModel.unpack = true
  rw [unpacked]
  exact isFinite_float ..

/-! ### Comparisons -/

/-- Mantissas and exponents in the form of doubles are compared as their numbers are. -/
theorem compare_scaled (first : Canonical m e) (second : Canonical n f) :
    (compare e f).then (compare m n) = compare (scaled m e) (scaled n f) := by
  have less := scaled_lt_iff first second
  have greater := scaled_lt_iff second first
  rcases order : compare (scaled m e) (scaled n f) with _ | _ | _
  · rw [Ordering.then_eq_lt, compare_lt_iff_lt, compare_eq_iff_eq, compare_lt_iff_lt]
    exact less.1 (compare_lt_iff_lt.1 order)
  · have same := compare_eq_iff_eq.1 order
    have notLess := mt less.2 same.not_lt
    have notGreater := mt greater.2 same.not_gt
    rw [Ordering.then_eq_eq, compare_eq_iff_eq, compare_eq_iff_eq]
    omega
  · rw [Ordering.then_eq_gt, compare_gt_iff_gt, compare_eq_iff_eq, compare_gt_iff_gt]
    have := greater.1 (compare_gt_iff_gt.1 order)
    omega

theorem compare_neg (q r : ℚ) : compare (-q) (-r) = (compare q r).swap := by
  rcases order : compare q r with _ | _ | _
  · exact compare_gt_iff_gt.2 (neg_lt_neg (compare_lt_iff_lt.1 order))
  · rw [compare_eq_iff_eq.1 order, compare_eq_iff_eq.2 rfl]
    rfl
  · exact compare_lt_iff_lt.2 (neg_lt_neg (compare_gt_iff_gt.1 order))

/-- Floats in the form of doubles are compared as their numbers are. -/
theorem compare_float (first : Canonical m e) (second : Canonical n f) (s t : Sign) :
    UnpackedFloat.compare (float s m e) (float t n f) =
      some (compare (signed s (scaled m e)) (signed t (scaled n f))) := by
  rcases Nat.eq_zero_or_pos m with rfl | mPos <;> rcases Nat.eq_zero_or_pos n with rfl | nPos
  · rw [float_zero, float_zero, scaled_zero, scaled_zero, signed_zero, signed_zero,
      compare_eq_iff_eq.2 rfl]
    rfl
  · have pos := scaled_pos nPos f
    rw [float_zero, float_of_pos nPos, scaled_zero, signed_zero]
    cases t with
    | negative => rw [signed, compare_gt_iff_gt.2 (neg_neg_of_pos pos)]; rfl
    | positive => rw [signed, compare_lt_iff_lt.2 pos]; rfl
  · have pos := scaled_pos mPos e
    rw [float_zero, float_of_pos mPos, scaled_zero, signed_zero]
    cases s with
    | negative => rw [signed, compare_lt_iff_lt.2 (neg_neg_of_pos pos)]; rfl
    | positive => rw [signed, compare_gt_iff_gt.2 pos]; rfl
  · have mScaled := scaled_pos mPos e
    have nScaled := scaled_pos nPos f
    rw [float_of_pos mPos, float_of_pos nPos]
    cases s <;> cases t
    · rw [signed, signed, compare_neg, ← compare_scaled first second]
      rfl
    · rw [signed, signed, compare_lt_iff_lt.2 (by linarith)]
      rfl
    · rw [signed, signed, compare_gt_iff_gt.2 (show _ < _ by linarith)]
      rfl
    · rw [signed, signed, ← compare_scaled first second]
      rfl

theorem abs_signed_lt_limit (canonical : Canonical m e) (bounded : e ≤ 971) (sign : Sign) :
    |signed sign (scaled m e)| < limit := by
  rw [abs_signed, abs_of_nonneg (scaled_nonneg m e)]
  exact scaled_lt canonical bounded

/-- Infinities come before and after all finite floats. -/
theorem compare_infinity (finite : a.isFinite = true) :
    UnpackedFloat.compare a (.infinity .positive) = some .lt ∧
      UnpackedFloat.compare a (.infinity .negative) = some .gt ∧
      UnpackedFloat.compare (.infinity .positive) a = some .gt ∧
      UnpackedFloat.compare (.infinity .negative) a = some .lt := by
  cases a with
  | notANumber => cases finite
  | infinity _ => cases finite
  | zero _ => exact ⟨rfl, rfl, rfl, rfl⟩
  | finite _ _ _ _ => exact ⟨rfl, rfl, rfl, rfl⟩

/-- The comparison of doubles is that of their numbers. -/
theorem compare_definite (first : Definite a) (second : Definite b) :
    UnpackedFloat.compare a b = some (compare (extent a) (extent b)) := by
  have limitPos := limit_pos
  cases first with
  | @float m e s canonical bounded =>
      obtain ⟨low, high⟩ := abs_lt.1 (abs_signed_lt_limit canonical bounded s)
      obtain ⟨below, above, -, -⟩ := compare_infinity (isFinite_float s m e)
      rw [extent_float]
      rcases second with ⟨t, other, -⟩ | ⟨_ | _⟩
      · rw [extent_float]
        exact compare_float canonical other s t
      · rw [above, extent, signed, compare_gt_iff_gt.2 low]
      · rw [below, extent, signed, compare_lt_iff_lt.2 high]
  | infinity s =>
      rcases second with ⟨t, other, bounded⟩ | t
      · obtain ⟨low, high⟩ := abs_lt.1 (abs_signed_lt_limit other bounded t)
        obtain ⟨-, -, above, below⟩ := compare_infinity (isFinite_float t _ _)
        rw [extent_float, extent]
        cases s
        · rw [below, signed, compare_lt_iff_lt.2 low]
        · rw [above, signed, compare_gt_iff_gt.2 high]
      · rw [extent, extent]
        cases s <;> cases t
        · rw [compare_eq_iff_eq.2 rfl]
          rfl
        · rw [signed, signed, compare_lt_iff_lt.2 (by linarith)]
          rfl
        · rw [signed, signed, compare_gt_iff_gt.2 (show _ < _ by linarith)]
          rfl
        · rw [compare_eq_iff_eq.2 rfl]
          rfl

theorem le_iff_extent (first : Definite x.toModel.unpack) (second : Definite y.toModel.unpack) :
    x ≤ y ↔ extent x.toModel.unpack ≤ extent y.toModel.unpack := by
  have unfolded : (x ≤ y) =
      (decide (UnpackedFloat.le x.toModel.unpack y.toModel.unpack = true) = true) := rfl
  rw [unfolded, decide_eq_true_iff, UnpackedFloat.le, compare_definite first second,
    Option.any_some, ← compare_le_iff_le, Ordering.isLE_iff_ne_gt]

theorem lt_iff_extent (first : Definite x.toModel.unpack) (second : Definite y.toModel.unpack) :
    x < y ↔ extent x.toModel.unpack < extent y.toModel.unpack := by
  rw [lt_iff_compare, compare_definite first second, Option.some_inj, compare_lt_iff_lt]

theorem beq_iff_extent (first : Definite x.toModel.unpack) (second : Definite y.toModel.unpack) :
    (x == y) = true ↔ extent x.toModel.unpack = extent y.toModel.unpack := by
  have unfolded : (x == y) = UnpackedFloat.beq x.toModel.unpack y.toModel.unpack := rfl
  rw [unfolded, UnpackedFloat.beq, compare_definite first second, beq_iff_eq, Option.some_inj,
    compare_eq_iff_eq]

theorem definite_of_isFinite (finite : x.isFinite = true) :
    Definite x.toModel.unpack ∧ extent x.toModel.unpack = value x := by
  obtain ⟨sign, m, e, canonical, bounded, unpacked⟩ := unpack_float_of_isFinite finite
  rw [value_of_unpack_float unpacked, unpacked, extent_float]
  exact ⟨.float sign canonical bounded, rfl⟩

theorem definite_of_isNaN (number : x.isNaN = false) : Definite x.toModel.unpack := by
  have opened : x.isNaN = x.toModel.unpack.isNaN := rfl
  rw [opened] at number
  cases unpacked : x.toModel.unpack with
  | notANumber =>
      rw [unpacked] at number
      cases number
  | infinity sign => exact .infinity sign
  | zero sign =>
      rw [← float_zero sign (-1074)]
      exact .float sign ⟨by decide, le_rfl, Or.inl rfl⟩ (by decide)
  | finite sign m e pos =>
      obtain ⟨canonical, bounded⟩ := canonical_of_unpack unpacked
      rw [← float_of_pos pos]
      exact .float sign canonical bounded

/-- Finite doubles are compared by their values. -/
theorem le_iff_value (first : x.isFinite = true) (second : y.isFinite = true) :
    x ≤ y ↔ value x ≤ value y := by
  obtain ⟨xDefinite, xExtent⟩ := definite_of_isFinite first
  obtain ⟨yDefinite, yExtent⟩ := definite_of_isFinite second
  rw [le_iff_extent xDefinite yDefinite, xExtent, yExtent]

theorem lt_iff_value_of_isFinite (first : x.isFinite = true) (second : y.isFinite = true) :
    x < y ↔ value x < value y := by
  obtain ⟨xDefinite, xExtent⟩ := definite_of_isFinite first
  obtain ⟨yDefinite, yExtent⟩ := definite_of_isFinite second
  rw [lt_iff_extent xDefinite yDefinite, xExtent, yExtent]

/-- Finite doubles are in one order or the other. -/
theorem le_of_not_le (first : x.isFinite = true) (second : y.isFinite = true) (other : ¬ x ≤ y) :
    y ≤ x := by
  rw [le_iff_value first second] at other
  rw [le_iff_value second first]
  exact (not_le.1 other).le

theorem beq_iff_value (first : x.isFinite = true) (second : y.isFinite = true) :
    (x == y) = true ↔ value x = value y := by
  obtain ⟨xDefinite, xExtent⟩ := definite_of_isFinite first
  obtain ⟨yDefinite, yExtent⟩ := definite_of_isFinite second
  rw [beq_iff_extent xDefinite yDefinite, xExtent, yExtent]

/-- Equal doubles are in the same order with others. -/
theorem le_congr {z : Float} (definite : Definite x.toModel.unpack)
    (first : Definite y.toModel.unpack) (second : Definite z.toModel.unpack)
    (same : (y == z) = true) : (x ≤ y ↔ x ≤ z) ∧ (y ≤ x ↔ z ≤ x) := by
  have equal := (beq_iff_extent first second).1 same
  rw [le_iff_extent definite first, le_iff_extent definite second, le_iff_extent first definite,
    le_iff_extent second definite, equal]
  exact ⟨Iff.rfl, Iff.rfl⟩

theorem beq_congr {z : Float} (definite : Definite x.toModel.unpack)
    (first : Definite y.toModel.unpack) (second : Definite z.toModel.unpack)
    (same : (x == y) = true) : (x == z) = true ↔ (y == z) = true := by
  have equal := (beq_iff_extent definite first).1 same
  rw [beq_iff_extent definite second, beq_iff_extent first second, equal]

/-! ### Results -/

/-- What an operation has to give whose exact result is a number: the double nearest to it, or an
infinity past the limit of the doubles. -/
def Result (q : ℚ) (x : Float) : Prop :=
  Definite x.toModel.unpack ∧ extent x.toModel.unpack = max (-limit) (min limit (nearestDouble q))

/-- Results come in the order of the exact numbers. -/
theorem Result.le (first : Result q x) (second : Result r y) (le : q ≤ r) : x ≤ y := by
  rw [le_iff_extent first.1 second.1, first.2, second.2]
  exact max_le_max_left _ (min_le_min_left _ (nearestDouble_mono le))

/-- Results of numbers that have the same nearest double are equal. -/
theorem Result.beq (first : Result q x) (second : Result r y)
    (same : nearestDouble q = nearestDouble r) : (x == y) = true := by
  rw [beq_iff_extent first.1 second.1, first.2, second.2, same]

theorem nearestDouble_signed (sign : Sign) (q : ℚ) :
    nearestDouble (signed sign q) = signed sign (nearestDouble q) := by
  cases sign
  · exact nearestDouble_neg q
  · rfl

/-- A correct float is packed into the result. -/
theorem Correct.result {rounded : UnpackedFloat} (correct : Correct q rounded) :
    Result q (.ofModel (.pack rounded)) := by
  obtain ⟨sign, same, m, e, canonical, rfl, nearest⟩ := correct
  have limitPos := limit_pos
  have exact : nearestDouble q = signed sign (scaled m e) := by
    rw [nearest, ← nearestDouble_signed, same]
  have unpacked : (Float.ofModel (.pack (float sign m e))).toModel.unpack =
      if e ≤ 971 then float sign m e else .infinity sign := unpack_pack_float canonical sign
  rw [Result, unpacked, exact]
  split
  · rename_i bounded
    obtain ⟨low, high⟩ := abs_lt.1 (abs_signed_lt_limit canonical bounded sign)
    rw [extent_float, min_eq_right high.le, max_eq_right low.le]
    exact ⟨.float sign canonical bounded, rfl⟩
  · rename_i large
    have past := limit_le_scaled canonical (not_le.1 large)
    refine ⟨.infinity sign, ?_⟩
    rw [extent]
    cases sign
    · rw [signed, signed, min_eq_right (by linarith), max_eq_left (by linarith)]
    · rw [signed, signed, min_eq_left past, max_eq_right (by linarith)]

/-- A finite double keeps below the limit. -/
theorem abs_value_lt_limit (finite : x.isFinite = true) : |value x| < limit := by
  obtain ⟨sign, m, e, canonical, bounded, unpacked⟩ := unpack_float_of_isFinite finite
  rw [value_of_unpack_float unpacked]
  exact abs_signed_lt_limit canonical bounded sign

/-- A number that is not outside a finite range is finite, and its value is in the range. -/
theorem value_mem_of_inside {z : Float} (low : x.isFinite = true)
    (high : z.isFinite = true) (number : y.isNaN = false) (above : ¬ y < x) (below : ¬ z < y) :
    value x ≤ value y ∧ value y ≤ value z := by
  have definite := definite_of_isNaN number
  obtain ⟨xDefinite, xExtent⟩ := definite_of_isFinite low
  obtain ⟨zDefinite, zExtent⟩ := definite_of_isFinite high
  rw [lt_iff_extent definite xDefinite, xExtent, not_lt] at above
  rw [lt_iff_extent zDefinite definite, zExtent, not_lt] at below
  have lowest := (abs_lt.1 (abs_value_lt_limit low)).1
  have highest := (abs_lt.1 (abs_value_lt_limit high)).2
  have finite : y.isFinite = true := by
    change UnpackedFloat.isFinite y.toModel.unpack = true
    generalize y.toModel.unpack = unpacked at definite above below
    cases definite with
    | float sign _ _ => exact isFinite_float ..
    | infinity sign =>
        cases sign with
        | negative => exact absurd (lowest.trans_le above) (lt_irrefl _)
        | positive => exact absurd (below.trans_lt highest) (lt_irrefl _)
  rw [(definite_of_isFinite finite).2] at above below
  exact ⟨above, below⟩

/-- A finite double is its own nearest double. -/
theorem nearestDouble_value (finite : x.isFinite = true) : nearestDouble (value x) = value x := by
  obtain ⟨sign, m, e, canonical, -, unpacked⟩ := unpack_float_of_isFinite finite
  rw [value_of_unpack_float unpacked, nearestDouble_signed, nearestDouble_scaled canonical]

/-- A finite double is what an operation has to give whose exact result it is. -/
theorem result_value (finite : x.isFinite = true) : Result (value x) x := by
  obtain ⟨low, high⟩ := abs_lt.1 (abs_value_lt_limit finite)
  obtain ⟨definite, same⟩ := definite_of_isFinite finite
  rw [Result, same, nearestDouble_value finite, min_eq_right high.le, max_eq_right low.le]
  exact ⟨definite, rfl⟩

/-- A finite result is the nearest double. -/
theorem Result.value_eq (result : Result q x) (finite : x.isFinite = true) :
    value x = nearestDouble q := by
  obtain ⟨low, high⟩ := abs_lt.1 (abs_value_lt_limit finite)
  have same := result.2
  rw [(definite_of_isFinite finite).2] at same
  rcases max_choice (-limit) (min limit (nearestDouble q)) with least | inner
  · exact absurd (same.trans least) low.ne'
  · rcases min_choice limit (nearestDouble q) with greatest | nearest
    · exact absurd (same.trans (inner.trans greatest)) high.ne
    · exact same.trans (inner.trans nearest)

/-- A result whose nearest double is below the limit is finite. -/
theorem Result.isFinite (result : Result q x) (bounded : |nearestDouble q| < limit) :
    x.isFinite = true := by
  obtain ⟨low, high⟩ := abs_lt.1 bounded
  obtain ⟨definite, same⟩ := result
  rw [min_eq_right high.le, max_eq_right low.le] at same
  change UnpackedFloat.isFinite x.toModel.unpack = true
  generalize x.toModel.unpack = unpacked at definite same
  cases definite with
  | float sign _ _ => exact isFinite_float ..
  | infinity sign =>
      rw [extent] at same
      cases sign
      · exact absurd same low.ne
      · exact absurd same high.ne'

/-- A result is finite whose exact value is not larger than a finite double. -/
theorem Result.isFinite_of_le (result : Result q x) (finite : y.isFinite = true)
    (le : |q| ≤ |value y|) : x.isFinite = true := by
  refine result.isFinite (lt_of_le_of_lt ?_ (abs_value_lt_limit finite))
  obtain ⟨low, high⟩ := abs_le.1 le
  have magnitude : nearestDouble |value y| = |value y| := by
    rcases abs_choice (value y) with same | opposite
    · rw [same, nearestDouble_value finite]
    · rw [opposite, nearestDouble_neg, nearestDouble_value finite]
  have above := nearestDouble_mono high
  have below := nearestDouble_mono low
  rw [nearestDouble_neg, magnitude] at below
  rw [magnitude] at above
  exact abs_le.2 ⟨below, above⟩

/-! ### Operations -/

theorem signed_mul (s t : Sign) (q r : ℚ) :
    signed (s * t) (q * r) = signed s q * signed t r := by
  cases s <;> cases t
  · exact (neg_mul_neg q r).symm
  · exact (neg_mul q r).symm
  · exact (mul_neg q r).symm
  · rfl

theorem RoundsEven.correct {rounded : UnpackedFloat} {sign : Sign} (nonneg : 0 ≤ q)
    (even : RoundsEven sign q rounded) : Correct (signed sign q) rounded := by
  refine ⟨sign, ?_, ?_⟩ <;> rw [abs_signed, abs_of_nonneg nonneg]
  exact even

theorem add_result (first : x.isFinite = true) (second : y.isFinite = true) :
    Result (value x + value y) (x + y) := by
  obtain ⟨s, m, e, canonical, -, unpacked⟩ := unpack_float_of_isFinite first
  obtain ⟨t, n, f, other, -, otherUnpacked⟩ := unpack_float_of_isFinite second
  have correct := add_correct canonical other s t
  rw [← unpacked, ← otherUnpacked, ← value_of_unpack_float unpacked,
    ← value_of_unpack_float otherUnpacked] at correct
  exact correct.result

theorem sub_result (first : x.isFinite = true) (second : y.isFinite = true) :
    Result (value x - value y) (x - y) := by
  obtain ⟨s, m, e, canonical, -, unpacked⟩ := unpack_float_of_isFinite first
  obtain ⟨t, n, f, other, -, otherUnpacked⟩ := unpack_float_of_isFinite second
  have correct := sub_correct canonical other s t
  rw [← unpacked, ← otherUnpacked, ← value_of_unpack_float unpacked,
    ← value_of_unpack_float otherUnpacked] at correct
  exact correct.result

theorem mul_result (first : x.isFinite = true) (second : y.isFinite = true) :
    Result (value x * value y) (x * y) := by
  obtain ⟨s, m, e, canonical, -, unpacked⟩ := unpack_float_of_isFinite first
  obtain ⟨t, n, f, other, -, otherUnpacked⟩ := unpack_float_of_isFinite second
  have correct := (mul_even canonical other s t).correct
    (mul_nonneg (scaled_nonneg m e) (scaled_nonneg n f))
  rw [signed_mul, ← unpacked, ← otherUnpacked, ← value_of_unpack_float unpacked,
    ← value_of_unpack_float otherUnpacked] at correct
  exact correct.result

theorem div_result (dividend : Nonnegative x) (divisor : Nonnegative y) (pos : 0 < value y) :
    Result (value x / value y) (x / y) := by
  obtain ⟨m, e, -, -, unpacked⟩ := dividend
  obtain ⟨n, f, -, -, otherUnpacked⟩ := divisor
  rw [value_of_unpack otherUnpacked] at pos
  have correct := (div_even (m := m) (e := e) (pos_of_scaled_pos pos) .positive .positive).correct
    (div_nonneg (scaled_nonneg m e) (scaled_nonneg n f))
  rw [← unpacked, ← otherUnpacked] at correct
  rw [value_of_unpack unpacked, value_of_unpack otherUnpacked]
  exact correct.result

theorem unpack_two : (2 : Float).toModel.unpack = float .positive (2 ^ 52) (-51) :=
  rfl

theorem value_two : value 2 = 2 := by
  rw [value_of_unpack unpack_two, scaled]
  norm_num

theorem nonnegative_two : Nonnegative 2 :=
  ⟨2 ^ 52, -51, ⟨by decide, by decide, Or.inr le_rfl⟩, by decide, unpack_two⟩

/-- Half of a double is a double, if the double is not among the very smallest. -/
theorem value_half (nonneg : Nonnegative x) (normal : 2 ^ (-1021 : Int) ≤ value x) :
    (x / 2).isFinite = true ∧ value (x / 2) = value x / 2 := by
  have result := div_result nonneg nonnegative_two (by rw [value_two]; norm_num)
  rw [value_two] at result
  have kept : nearestDouble (value x / 2) = value x / 2 := by
    obtain ⟨m, e, canonical, -, unpacked⟩ := nonneg
    rw [value_of_unpack unpacked] at normal ⊢
    have high : (m : ℚ) < 2 ^ 53 := by exact_mod_cast canonical.high
    -- With the least exponent even the longest mantissa is too small.
    have above : -1074 < e := by
      by_contra small
      refine normal.not_gt ?_
      calc scaled m e < 2 ^ 53 * 2 ^ e := mul_lt_mul_of_pos_right high (two_zpow_pos e)
        _ = 2 ^ (e + (53 : Nat)) := (two_zpow_add e 53).symm
        _ ≤ 2 ^ (-1021 : Int) := zpow_le_zpow_right₀ (by norm_num) (by omega)
    have half : scaled m e / 2 = ((m : Int) : ℚ) * 2 ^ (e - 1) := by
      rw [scaled, zpow_sub_one₀ two_ne_zero]
      push_cast
      ring
    rw [half]
    exact nearestDouble_eq_self (by rw [Nat.abs_cast]; exact_mod_cast canonical.high) (by omega)
  have finite := result.isFinite_of_le nonneg.isFinite (by
    have := nonneg.value_nonneg
    rw [abs_of_nonneg this, abs_of_nonneg (by linarith)]
    linarith)
  exact ⟨finite, (result.value_eq finite).trans kept⟩

/-- A word is converted to the double nearest to it. -/
theorem ofWord_result (word : n < 2 ^ 64) : Result n (ofWord n) := by
  rcases Nat.eq_zero_or_pos n with rfl | pos
  · have zero : value (ofWord 0) = (0 : Nat) := by
      rw [value_of_unpack (m := 0) (e := -1074) rfl, scaled_zero, Nat.cast_zero]
    rw [← zero]
    exact result_value rfl
  · have unfolded : ofWord n = .ofModel (.pack (UnpackedFloat.ofUInt64 .binary64 n.toUInt64)) :=
      rfl
    have correct := (round_even pos 0 .positive).correct (scaled_nonneg n 0)
    rw [signed, scaled, zpow_zero, mul_one] at correct
    rw [unfolded, ofUInt64_toUInt64 pos word]
    exact correct.result

/-- The double of a word has no minus. -/
theorem ofWord_nearest (word : n < 2 ^ 64) :
    Nonnegative (ofWord n) ∧ value (ofWord n) = nearestDouble n := by
  have nonneg : Nonnegative (ofWord n) := by
    rcases Nat.eq_zero_or_pos n with rfl | pos
    · exact ⟨0, -1074, ⟨by decide, le_rfl, Or.inl rfl⟩, by decide, rfl⟩
    · exact (ofWord_near pos word).1
  exact ⟨nonneg, (ofWord_result word).value_eq nonneg.isFinite⟩

/-- The integer part of a double that is not above a word is not above the word either. -/
theorem toWord_le_of_not_lt (small : n < 2 ^ 53) (within : ¬ ofWord n < x) : toWord x ≤ n := by
  have word : n < 2 ^ 64 := by omega
  obtain ⟨bound, nearest⟩ := ofWord_nearest word
  rw [nearestDouble_natCast small] at nearest
  by_cases nonneg : Nonnegative x
  · rw [lt_iff_value bound nonneg, not_lt, nearest] at within
    rw [toWord_of_nonnegative nonneg]
    exact Nat.le_trans (Nat.min_le_left ..) (Nat.floor_le_of_le within)
  · -- Anything else has no integer part, or one that is not positive.
    have nonpos : UnpackedFloat.toInt 0 (UInt64.size - 1) x.toModel.unpack ≤ 0 := by
      cases unpacked : x.toModel.unpack with
      | notANumber => exact le_rfl
      | zero sign => exact le_rfl
      | infinity sign =>
          cases sign with
          | negative => exact le_rfl
          | positive => exact absurd (lt_infinity bound unpacked) within
      | finite sign m e pos =>
          cases sign with
          | negative => exact roundToInt_negative_le m e
          | positive =>
              obtain ⟨canonical, bounded⟩ := canonical_of_unpack unpacked
              rw [← float_of_pos pos] at unpacked
              exact absurd ⟨m, e, canonical, bounded, unpacked⟩ nonneg
    rw [toWord_eq, Int.toNat_of_nonpos nonpos]
    exact Nat.le_trans (toNat_ofNatClamp_le 0) (Nat.zero_le n)

end Metronome.Number
