/-
Module: Metronome.Proofs.RoundTrip
Purpose: Up to which position seconds lead back to the position, on every time base.
Trusted boundary: none
Main exports:
  TimeGrid.Returns, TimeGrid.firstInexact, TimeGrid.closest_returned, TimeGrid.Faithful,
  TimeGrid.faithful_iff
-/
import Mathlib
import Metronome.Proofs.Arithmetic
import Metronome.Proofs.Cycles
import Metronome.Proofs.Ticks

/-!
A position is divided by the time base and multiplied by it again, and both results are rounded.
The first rounding is off by half a unit of the seconds, which the time base makes a part of
`2 ^ 53` of the position: less than a quarter of a position up to `2 ^ 51`.  The second rounding
leaves a number there that is less than a quarter above its position and half a position below it at
most.

Past `2 ^ 51` the first rounding can be off by more.  With the seconds `2 ^ 52 + a` and the time
base `2 ^ 52 + b`, in their units, the product is off by more than a quarter above the position
`2 ^ 51 + k` only if `a + b` is at most `2 * k` but `a * b` at least `2 ^ 51`.  So `k` is not less
than the square root of `2 ^ 51`, and there is a time base where it is not more.
-/

namespace Metronome.TimeGrid

open Number (Canonical scaled nearestDouble unitExponent closest two_zpow_pos)

variable {p : Nat} {m : Nat} {e : Int} {base : ℚ}

/-- The first position that does not return from its seconds on some time base. -/
def firstInexact : Nat :=
  2 ^ 51 + 47453133

/-! ### The first rounding -/

/-- What half a unit of the seconds is in positions. -/
theorem abs_returned_sub_le (basePos : 0 < base) (p : Nat) :
    |nearestDouble (p / base) * base - p| ≤ 2 ^ unitExponent (p / base) * base / 2 := by
  have moved : nearestDouble (p / base) * base - p =
      (nearestDouble (p / base) - p / base) * base := by
    rw [sub_mul, div_mul_cancel₀ _ basePos.ne']
  calc |nearestDouble (p / base) * base - p| = |nearestDouble (p / base) - p / base| * base := by
        rw [moved, abs_mul, abs_of_pos basePos]
    _ ≤ 2 ^ unitExponent (p / base) / 2 * base :=
        mul_le_mul_of_nonneg_right (Number.nearestDouble_near _) basePos.le
    _ = 2 ^ unitExponent (p / base) * base / 2 := div_mul_eq_mul_div ..

/-- The least unit of seconds is less than half a position on every time base. -/
theorem least_mul_base_lt (small : base < 2 ^ (1024 : Int)) : 2 ^ (-1074 : Int) * base < 1 / 2 := by
  calc (2 : ℚ) ^ (-1074 : Int) * base < 2 ^ (-1074 : Int) * 2 ^ (1024 : Int) :=
        mul_lt_mul_of_pos_left small (two_zpow_pos _)
    _ ≤ 1 / 2 := by
        rw [← zpow_add₀ (by norm_num)]
        norm_num

/-- Any other unit of the seconds is a part in `2 ^ 52` of the position at most. -/
theorem unit_mul_base_le (basePos : 0 < base) (pos : 0 < p)
    (large : unitExponent (p / base) ≠ -1074) :
    2 ^ 52 * (2 ^ unitExponent (p / base) * base) ≤ p := by
  have quotient : 0 < (p : ℚ) / base := div_pos (Nat.cast_pos.2 pos) basePos
  have full := Number.unit_le_abs quotient.ne' large
  rwa [abs_of_pos quotient, le_div_iff₀ basePos, mul_assoc] at full

theorem lt_unit_mul_base (basePos : 0 < base) (p : Nat) :
    p < 2 ^ 53 * (2 ^ unitExponent (p / base) * base) := by
  have quotient : 0 ≤ (p : ℚ) / base := div_nonneg (Nat.cast_nonneg p) basePos.le
  have below := Number.abs_lt_unit (p / base)
  rwa [abs_of_nonneg quotient, div_lt_iff₀ basePos, mul_assoc] at below

/-- The product of the seconds and the time base, in units and with a power of two taken off each,
is off by more than a quarter of a position but less than a half only far enough from the power. -/
theorem le_of_excess {a b k : ℕ} (low : 2 ^ 51 + 2 * k * 2 ^ 52 ≤ (a + b) * 2 ^ 52 + a * b)
    (high : (a + b) * 2 ^ 52 + a * b < 2 * k * 2 ^ 52 + 2 ^ 52) : 47453133 ≤ k := by
  have sum : a + b ≤ 2 * k := by
    by_contra more
    have least : (2 * k + 1) * 2 ^ 52 ≤ (a + b) * 2 ^ 52 := Nat.mul_le_mul_right _ (not_le.1 more)
    omega
  have product : 2 ^ 51 ≤ a * b := by
    have most : (a + b) * 2 ^ 52 ≤ 2 * k * 2 ^ 52 := Nat.mul_le_mul_right _ sum
    omega
  have square : a * b ≤ k * k := by nlinarith [sq_nonneg ((a : ℤ) - b)]
  by_contra less
  have bound : k * k ≤ 47453132 * 47453132 := Nat.mul_le_mul (by omega) (by omega)
  omega

/-- Two full mantissas whose product is less than half a position above a position are less than a
quarter above it, if it comes before the first inexact one. -/
theorem product_lt {t : ℕ} (tFull : 2 ^ 52 ≤ t) (mFull : 2 ^ 52 ≤ m) (pFull : 2 ^ 51 ≤ p)
    (before : p < firstInexact) (high : (t * m : ℚ) / 2 ^ 53 < p + 1 / 2) :
    (t * m : ℚ) / 2 ^ 53 < p + 1 / 4 := by
  obtain ⟨a, rfl⟩ := Nat.exists_eq_add_of_le tFull
  obtain ⟨b, rfl⟩ := Nat.exists_eq_add_of_le mFull
  obtain ⟨k, rfl⟩ := Nat.exists_eq_add_of_le pFull
  have early : k < 47453133 := by
    rw [firstInexact] at before
    omega
  rw [div_lt_iff₀ (by norm_num)] at high
  have less : ((2 ^ 52 + a) * (2 ^ 52 + b) : ℕ) < ((2 ^ 51 + k) * 2 ^ 53 + 2 ^ 52 : ℕ) := by
    have cast : (((2 ^ 52 + a) * (2 ^ 52 + b) : ℕ) : ℚ) < ((2 ^ 51 + k) * 2 ^ 53 + 2 ^ 52 : ℕ) := by
      push_cast at high ⊢
      linarith
    exact_mod_cast cast
  by_contra notLess
  rw [not_lt, le_div_iff₀ (by norm_num)] at notLess
  have excess : ((2 ^ 51 + k) * 2 ^ 53 + 2 ^ 51 : ℕ) ≤ ((2 ^ 52 + a) * (2 ^ 52 + b) : ℕ) := by
    have cast : (((2 ^ 51 + k) * 2 ^ 53 + 2 ^ 51 : ℕ) : ℚ) ≤ ((2 ^ 52 + a) * (2 ^ 52 + b) : ℕ) := by
      push_cast at notLess ⊢
      linarith
    exact_mod_cast cast
  have expanded : (2 ^ 52 + a) * (2 ^ 52 + b) = 2 ^ 104 + (a + b) * 2 ^ 52 + a * b := by ring
  rw [expanded] at less excess
  have late : 47453133 ≤ k := le_of_excess (a := a) (b := b) (by omega) (by omega)
  omega

/-- A time base of at least one has a full mantissa. -/
theorem full_of_one_le (canonical : Canonical m e) (one : 1 ≤ scaled m e) : 2 ^ 52 ≤ m := by
  refine canonical.full.resolve_left fun least => not_lt.2 one ?_
  have bits : (m : ℚ) < 2 ^ (53 : Int) := by exact_mod_cast canonical.high
  calc scaled m e < 2 ^ (53 : Int) * 2 ^ e := mul_lt_mul_of_pos_right bits (two_zpow_pos e)
    _ = 2 ^ (53 + e) := (zpow_add₀ (by norm_num) _ _).symm
    _ ≤ 1 := zpow_le_one_of_nonpos₀ (by norm_num) (by omega)

/-- A position with 52 bits leaves two exponents for the product of the units of its seconds and of
the time base. -/
theorem unit_exponents (canonical : Canonical m e) (mFull : 2 ^ 52 ≤ m) (pFull : 2 ^ 51 ≤ p)
    (short : p < 2 ^ 52) {f : Int} (low : 2 ^ 52 * (m * 2 ^ f) ≤ (p : ℚ))
    (high : p < 2 ^ 53 * (m * 2 ^ f : ℚ)) : f = -54 ∨ f = -53 := by
  have unit := two_zpow_pos f
  have least : (2 : ℚ) ^ (52 : Int) ≤ m := by exact_mod_cast mFull
  have most : (m : ℚ) < 2 ^ (53 : Int) := by exact_mod_cast canonical.high
  have pLeast : (2 : ℚ) ^ (51 : Int) ≤ p := by exact_mod_cast pFull
  have pMost : (p : ℚ) < 2 ^ (52 : Int) := by exact_mod_cast short
  have below : (2 : ℚ) ^ (104 + f) < 2 ^ (52 : Int) := by
    calc (2 : ℚ) ^ (104 + f) = 2 ^ 52 * (2 ^ (52 : Int) * 2 ^ f) := by
          rw [zpow_add₀ (by norm_num)]
          norm_num
          ring
      _ ≤ 2 ^ 52 * (m * 2 ^ f) := by gcongr
      _ < 2 ^ (52 : Int) := low.trans_lt pMost
  have above : (2 : ℚ) ^ (51 : Int) < 2 ^ (106 + f) := by
    calc (2 : ℚ) ^ (51 : Int) < 2 ^ 53 * (m * 2 ^ f) := pLeast.trans_lt high
      _ ≤ 2 ^ 53 * (2 ^ (53 : Int) * 2 ^ f) := by gcongr
      _ = 2 ^ (106 + f) := by
          rw [zpow_add₀ (by norm_num)]
          norm_num
          ring
  rw [zpow_lt_zpow_iff_right₀ (by norm_num)] at below above
  omega

/-- The seconds of a position before the first inexact one lead back to less than a quarter above it
and not more than a half below it. -/
theorem returned_bounds (canonical : Canonical m e) (bounded : e ≤ 971) (one : 1 ≤ scaled m e)
    (pos : 0 < p) (before : p < firstInexact) :
    p - 1 / 2 ≤ nearestDouble (p / scaled m e) * scaled m e ∧
      nearestDouble (p / scaled m e) * scaled m e < p + 1 / 4 := by
  have basePos : 0 < scaled m e := zero_lt_one.trans_le one
  have error := abs_le.1 (abs_returned_sub_le basePos p)
  by_cases least : unitExponent (p / scaled m e) = -1074
  · have small := least_mul_base_lt (Number.scaled_lt canonical bounded)
    rw [least] at error
    constructor <;> linarith
  · have units := unit_mul_base_le basePos pos least
    have below := lt_unit_mul_base basePos p
    have bits : p < 2 ^ 52 := before.trans (by decide)
    have most : (p : ℚ) < 2 ^ 52 := by exact_mod_cast bits
    refine ⟨by linarith, ?_⟩
    rcases Nat.lt_or_ge p (2 ^ 51) with short | long
    · have fewer : (p : ℚ) < 2 ^ 51 := by exact_mod_cast short
      linarith
    · have mFull := full_of_one_le canonical one
      have quotient : 0 < (p : ℚ) / scaled m e := div_pos (Nat.cast_pos.2 pos) basePos
      obtain ⟨t, tFull, seconds⟩ := Number.nearestDouble_full quotient least
      have joined : (2 : ℚ) ^ unitExponent (p / scaled m e) * scaled m e =
          m * 2 ^ (unitExponent (p / scaled m e) + e) := by
        rw [scaled, zpow_add₀ (by norm_num)]
        ring
      have product : nearestDouble (p / scaled m e) * scaled m e =
          t * m * 2 ^ (unitExponent (p / scaled m e) + e) := by
        rw [seconds, mul_assoc, joined, mul_assoc]
      rw [joined] at units below error
      have mMost : (m : ℚ) < 2 ^ 53 := by exact_mod_cast canonical.high
      rcases unit_exponents canonical mFull long bits units below with quarter | half
      · have unit : (2 : ℚ) ^ (-54 : Int) = 1 / 2 ^ 54 := by norm_num
        rw [quarter, unit] at error
        linarith
      · have unit : (2 : ℚ) ^ (-53 : Int) = 1 / 2 ^ 53 := by norm_num
        rw [half, unit] at error product
        have returned : nearestDouble (p / scaled m e) * scaled m e = t * m / 2 ^ 53 := by
          rw [product, mul_one_div]
        rw [returned] at error ⊢
        refine product_lt tFull mFull long before ?_
        linarith

/-! ### The second rounding -/

/-- What is less than a quarter above a position and not more than a half below it is rounded to a
double that has the position as the closest one. -/
theorem closest_of_bounds {s : ℚ} (pos : 0 < p) (short : p < 2 ^ 52) (low : p - 1 / 2 ≤ s)
    (high : s < p + 1 / 4) : closest (nearestDouble s) = p := by
  have one : (1 : ℚ) ≤ p := by exact_mod_cast pos
  have most : (p : ℚ) + 1 ≤ 2 ^ 52 := by exact_mod_cast short
  have sPos : 0 < s := by linarith
  have below : (p : ℚ) - 1 / 2 ≤ nearestDouble s := by
    have half : (p : ℚ) - 1 / 2 = ((2 * p - 1 : ℤ) : ℚ) * 2 ^ (-1 : Int) := by
      push_cast
      norm_num
      ring
    have kept : nearestDouble (p - 1 / 2) = p - 1 / 2 := by
      rw [half]
      refine Number.nearestDouble_eq_self ?_ (by norm_num)
      rw [abs_lt]
      constructor <;> omega
    rw [← kept]
    exact Number.nearestDouble_mono low
  have above : nearestDouble s < p + 1 / 2 := by
    have unit : unitExponent s ≤ -1 := by
      refine Number.unitExponent_le sPos.ne' ?_ (by norm_num)
      rw [abs_of_pos sPos]
      norm_num at most ⊢
      linarith
    have near := (abs_le.1 (Number.nearestDouble_near s)).2
    have small : (2 : ℚ) ^ unitExponent s ≤ 2 ^ (-1 : Int) :=
      zpow_le_zpow_right₀ (by norm_num) unit
    norm_num at small
    linarith
  rw [closest, Nat.floor_eq_iff (by linarith)]
  constructor <;> linarith

/-! ### Positions and their seconds -/

variable {timeBase : Float}

/-- The seconds of a position lead back to it, whichever output asks. -/
def Returns (timeBase : Float) (position : Nat) : Prop :=
  ∀ output, TimeGrid.position (seconds position timeBase) timeBase output = .ok position

/-- The output that asks for a position is of no account where there is one. -/
theorem position_output {t timeBase : Float} {output : String} {point : Nat}
    (found : position t timeBase output = .ok point) (other : String) :
    position t timeBase other = .ok point := by
  unfold position at found ⊢
  split at found
  · cases found
  · rename_i sound
    rw [if_neg sound]
    dsimp only at found ⊢
    split at found
    · cases found
    · rename_i within
      rw [if_neg within]
      exact found

/-- One output is enough to see that a position returns. -/
theorem returns_of {timeBase : Float} {point : Nat} {output : String}
    (found : position (seconds point timeBase) timeBase output = .ok point) :
    Returns timeBase point :=
  position_output found

/-- A position is a double. -/
theorem ofWord_exact (short : p < 2 ^ 53) :
    Number.Nonnegative (Number.ofWord p) ∧ Number.value (Number.ofWord p) = p := by
  have nearest := Number.ofWord_nearest (n := p) (short.trans (by decide))
  rwa [Number.nearestDouble_natCast short] at nearest

/-- The seconds of a position are the double nearest to the quotient. -/
theorem seconds_exact (base : Number.Nonnegative timeBase) (one : 1 ≤ Number.value timeBase)
    (short : p < 2 ^ 53) : Number.Nonnegative (seconds p timeBase) ∧
      Number.value (seconds p timeBase) = nearestDouble (p / Number.value timeBase) := by
  have basePos := zero_lt_one.trans_le one
  obtain ⟨nonneg, same⟩ := ofWord_exact short
  have result := Number.div_result nonneg base basePos
  have rounds := Number.div_roundsTo nonneg base basePos
  rw [same, ← seconds] at result rounds
  cases rounds with
  | finite finite _ => exact ⟨finite, result.value_eq finite.isFinite⟩
  | infinite _ large =>
      have bits : (p : ℚ) < 2 ^ 53 := by exact_mod_cast short
      have less := div_le_self (Nat.cast_nonneg p) one
      linarith

/-- The product of the seconds of a position and the time base is not far from the position, which
is the whole number closest to its double, if it comes before the first inexact one. -/
theorem closest_returned (base : Number.Nonnegative timeBase) (one : 1 ≤ Number.value timeBase)
    (before : p < firstInexact) :
    Number.value (seconds p timeBase) * Number.value timeBase < p + 1 / 4 ∧
      closest (nearestDouble (Number.value (seconds p timeBase) * Number.value timeBase)) = p := by
  rw [(seconds_exact base one (before.trans (by decide))).2]
  rcases Nat.eq_zero_or_pos p with rfl | pos
  · rw [Nat.cast_zero, zero_div, Number.nearestDouble_zero, zero_mul, Number.nearestDouble_zero,
      closest]
    norm_num
  · obtain ⟨m, e, canonical, bounded, unpacked⟩ := base
    rw [Number.value_of_unpack unpacked] at one ⊢
    obtain ⟨low, high⟩ := returned_bounds canonical bounded one pos before
    exact ⟨high, closest_of_bounds pos (before.trans (by decide)) low high⟩

/-- The product of the seconds and the time base is finite, and its nearest whole number is the
position. -/
theorem nearest_returned (base : Number.Nonnegative timeBase) (one : 1 ≤ Number.value timeBase)
    (before : p < firstInexact) :
    Number.Nonnegative (Number.nearest (seconds p timeBase * timeBase)) ∧
      Number.value (Number.nearest (seconds p timeBase * timeBase)) = p := by
  have bits : p < 2 ^ 53 := before.trans (by decide)
  obtain ⟨nonneg, -⟩ := seconds_exact base one bits
  obtain ⟨small, returned⟩ := closest_returned base one before
  have result := Number.mul_result nonneg.isFinite base.isFinite
  cases Number.mul_roundsTo nonneg base with
  | finite finite _ =>
      obtain ⟨whole, nearest⟩ := Number.nearest_of_nonnegative finite
      rw [result.value_eq finite.isFinite, returned] at nearest
      exact ⟨whole, nearest⟩
  | infinite _ large =>
      have most : (p : ℚ) < 2 ^ 53 := by exact_mod_cast bits
      linarith

/-- What the product is rounded and converted to is the position. -/
theorem toWord_returned (base : Number.Nonnegative timeBase) (one : 1 ≤ Number.value timeBase)
    (before : p < firstInexact) :
    Number.toWord (Number.nearest (seconds p timeBase * timeBase)) = p := by
  have bits : p < 2 ^ 53 := before.trans (by decide)
  have size : UInt64.size = 2 ^ 64 := rfl
  obtain ⟨whole, same⟩ := nearest_returned base one before
  rw [Number.toWord_of_nonnegative whole, same, Nat.floor_natCast]
  omega

/-- What is required of the periods of a program holds of all stops before the first inexact
position. -/
theorem exactUpTo_of_lt (base : Number.Nonnegative timeBase) (one : 1 ≤ Number.value timeBase)
    {stop : Nat} (before : stop < firstInexact) : ExactUpTo timeBase stop :=
  fun _ _ inside => toWord_returned base one (inside.trans_lt before)

theorem ofWord_last : Number.Nonnegative (Number.ofWord last) ∧
    Number.value (Number.ofWord last) = 2 ^ 53 := by
  have unpacked : (Number.ofWord last).toModel.unpack = Number.float .positive (2 ^ 52) 1 := rfl
  refine ⟨⟨2 ^ 52, 1, ⟨by decide, by decide, Or.inr le_rfl⟩, by decide, unpacked⟩, ?_⟩
  rw [Number.value_of_unpack unpacked, scaled]
  norm_num

/-- The seconds of a position before the first inexact one lead back to it, on every time base of at
least one position per second. -/
theorem returns_of_lt (base : Number.Nonnegative timeBase) (one : 1 ≤ Number.value timeBase)
    (before : p < firstInexact) : Returns timeBase p := by
  intro output
  have bits : p < 2 ^ 53 := before.trans (by decide)
  obtain ⟨nonneg, -⟩ := seconds_exact base one bits
  obtain ⟨whole, same⟩ := nearest_returned base one before
  have timely : ¬ seconds p timeBase < 0 := by
    rw [Number.lt_iff_value nonneg Number.nonnegative_zero, Number.value_zero, not_lt]
    exact nonneg.value_nonneg
  have within : ¬ Number.ofWord last < Number.nearest (seconds p timeBase * timeBase) := by
    have most : (p : ℚ) < 2 ^ 53 := by exact_mod_cast bits
    rw [Number.lt_iff_value ofWord_last.1 whole, ofWord_last.2, same, not_lt]
    exact most.le
  have word := toWord_returned base one before
  rw [position, nonneg.isFinite]
  simp only [timely, within, word, Bool.not_true, decide_false, Bool.or_self, Bool.false_eq_true,
    if_false]

/-- Equal seconds belong to the same position, up to the first inexact one. -/
theorem eq_of_seconds_beq (base : Number.Nonnegative timeBase) (one : 1 ≤ Number.value timeBase)
    {first second : Nat} (firstBefore : first < firstInexact) (secondBefore : second < firstInexact)
    (same : (seconds first timeBase == seconds second timeBase) = true) : first = second := by
  have firstFinite := (seconds_exact base one (firstBefore.trans (by decide))).1.isFinite
  have secondFinite := (seconds_exact base one (secondBefore.trans (by decide))).1.isFinite
  have firstReturns := (closest_returned base one firstBefore).2
  have secondReturns := (closest_returned base one secondBefore).2
  rw [(Number.beq_iff_value firstFinite secondFinite).1 same] at firstReturns
  exact firstReturns.symm.trans secondReturns

/-- The seconds of all positions up to a bound are as good as the positions: they lead back to them,
as times and as periods of runs, no two positions have the same seconds, and a run is not merged
into one of another period. -/
structure Faithful (timeBase : Float) (bound : Nat) : Prop where
  returns : ∀ point ≤ bound, Returns timeBase point
  periods : ∀ point ≤ bound, ∀ run : Run,
    run.period = seconds point timeBase → run.positions timeBase = point
  apart : ∀ first ≤ bound, ∀ second ≤ bound,
    (seconds first timeBase == seconds second timeBase) = true → first = second
  kept : ∀ first ≤ bound, ∀ second ≤ bound, first ≠ second → ∀ last run : Run,
    last.period = seconds first timeBase → run.period = seconds second timeBase →
      ∀ rest, Entry.pushRun run (.tick last :: rest) = .tick run :: .tick last :: rest

/-- On all time bases that are accepted, the seconds of all positions up to a bound are as good as
the positions exactly if the bound comes before the first inexact position. -/
theorem faithful_iff (bound : Nat) :
    (∀ settings : Settings, settings.check = .ok () → Faithful settings.timeBase bound) ↔
      bound < firstInexact := by
  constructor
  · intro faithful
    by_contra late
    have accepted : (⟨4503599674823629, 1, .ideal⟩ : Settings).check = .ok () :=
      Checks.toOption_eq_some_iff.1 (by decide +kernel)
    have moved : position (seconds firstInexact 4503599674823629) 4503599674823629 "" =
        .ok (firstInexact + 1) := Checks.toOption_eq_some_iff.1 (by decide +kernel)
    have returned := (faithful _ accepted).returns firstInexact (not_lt.1 late) ""
    exact absurd (Except.ok.inj (moved.symm.trans returned)) (Nat.succ_ne_self _)
  · intro before settings checked
    obtain ⟨base, one⟩ := settings.timeBase_of_check checked
    have apart : ∀ first ≤ bound, ∀ second ≤ bound,
        (seconds first settings.timeBase == seconds second settings.timeBase) = true →
          first = second := fun first firstInside second secondInside =>
      eq_of_seconds_beq base one (firstInside.trans_lt before) (secondInside.trans_lt before)
    refine ⟨fun point inside => returns_of_lt base one (inside.trans_lt before), ?_, apart, ?_⟩
    · intro point inside run period
      rw [Run.positions, period]
      exact toWord_returned base one (inside.trans_lt before)
    · intro first firstInside second secondInside differ last run lastPeriod runPeriod rest
      have differs : (last.period == run.period) = false := by
        rw [lastPeriod, runPeriod, Bool.eq_false_iff]
        exact fun same => differ (apart first firstInside second secondInside same)
      rw [Entry.pushRun, differs, Bool.false_and, if_neg Bool.false_ne_true]

/-- With a nanosecond for a position, the seconds of the positions of eleven days are as good as the
positions. -/
theorem elevenDays_faithful : Faithful ({} : Settings).timeBase 1000000000000000 :=
  (faithful_iff _).2 (by decide) _ (Checks.toOption_eq_some_iff.1 (by decide +kernel))

/-- Of the usable positions two neighbours, after ninety-seven days of nanoseconds, have the same
seconds, which lead back to the second one, and their runs are merged. -/
theorem neighbours_merged :
    ({} : Settings).check = .ok () ∧ 8388608000000002 ≤ last ∧
      (seconds 8388608000000001 ({} : Settings).timeBase ==
        seconds 8388608000000002 ({} : Settings).timeBase) = true ∧
      position (seconds 8388608000000001 ({} : Settings).timeBase) ({} : Settings).timeBase "" =
        .ok 8388608000000002 ∧
      (Entry.pushRun ⟨seconds 8388608000000002 ({} : Settings).timeBase, 1, true, none⟩
        [.tick ⟨seconds 8388608000000001 ({} : Settings).timeBase, 1, true, none⟩]).length = 1 ∧
      ¬ Faithful ({} : Settings).timeBase last := by
  have returned : position (seconds 8388608000000001 ({} : Settings).timeBase)
      ({} : Settings).timeBase "" = .ok 8388608000000002 :=
    Checks.toOption_eq_some_iff.1 (by decide +kernel)
  refine ⟨Checks.toOption_eq_some_iff.1 (by decide +kernel), by decide, by decide +kernel, returned,
    by decide +kernel, fun faithful => ?_⟩
  have exact := faithful.returns 8388608000000001 (by decide) ""
  exact absurd (Except.ok.inj (returned.symm.trans exact)) (by decide)

end Metronome.TimeGrid
