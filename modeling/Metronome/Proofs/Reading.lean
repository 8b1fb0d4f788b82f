/-
Module: Metronome.Proofs.Reading
Purpose: One formula read in doubles and in exact rational arithmetic, and codes on a scale in the
  exact reading.
Trusted boundary: none
Main exports:
  Reading, Reading.code, Reading.wrap, Reading.Inside, Reading.code_bounds, Reading.code_mono,
  Reading.code_near, Reading.code_reconstruct, Reading.wrap_div
-/
import Mathlib
import Metronome.Card.Basic
import Metronome.Proofs.Arithmetic

/-!
The formulas of the cards are written once, over numbers of any kind that have the operations they
use.  Read in doubles they are what the cards compute.  Read in rational numbers, with every
operation exact, they are what the cards approximate: a double stands for its value, rounding gives
the nearest whole number, a half away from zero, and a conversion cuts off the fraction and stops at
the ends of the integer type.
-/

namespace Metronome

/-! ### Readings -/

/-- How doubles, words and the functions on doubles are read as numbers of a kind. -/
class Reading (α : Type) where
  read : Float → α
  ofWord : Nat → α
  nearest : α → α
  toSigned : α → Int
  toWord : α → Nat
  remainder : α → α → α
  magnitude : α → α

namespace Reading

instance double : Reading Float where
  read := id
  ofWord := Number.ofWord
  nearest := Number.nearest
  toSigned := Number.toSigned
  toWord := Number.toWord
  remainder := Number.remainder
  magnitude := Float.abs

/-- The integer part of a number. -/
def truncate (q : ℚ) : Int :=
  if 0 ≤ q then ⌊q⌋ else ⌈q⌉

/-- The whole number nearest to a number, a half going away from zero. -/
def roundAway (q : ℚ) : Int :=
  if 0 ≤ q then ⌊q + 1 / 2⌋ else ⌈q - 1 / 2⌉

/-- The nearest signed 64-bit number. -/
def saturate (k : Int) : Int :=
  max (-2 ^ 63) (min (2 ^ 63 - 1) k)

instance rational : Reading ℚ where
  read := Number.value
  ofWord word := word
  nearest q := roundAway q
  toSigned q := saturate (truncate q)
  toWord q := (min (2 ^ 64 - 1) (truncate q)).toNat
  remainder x y := x - y * truncate (x / y)
  magnitude q := |q|

section Formulas

variable {α : Type} [Add α] [Sub α] [Mul α] [Div α] [LT α] [DecidableLT α] [Reading α]

/-- The code of a value in the range from `low` to `high`, on a scale of `2 ^ bits` codes.  In doubles
this is `quantize`. -/
def code (value low high : α) (bits : Nat) : Int :=
  toSigned (nearest (onScale value low high (ofWord (1 <<< bits - 1))))

/-- The remainder moved into one period.  In doubles this is `Number.wrap`. -/
def wrap (x y : α) : α :=
  let rest := remainder x y
  if rest < read 0 then rest + magnitude y else rest

/-- Samples none of which is outside a range. -/
def Inside (low high : α) (samples : List α) : Prop :=
  ∀ sample ∈ samples, ¬ sample < low ∧ ¬ high < sample

end Formulas

/-- A search for a sample outside a range finds none if all are inside. -/
theorem outside?_eq_none {low high : Float} {samples : List Float} :
    Card.outside? low high samples = none ↔ Inside low high samples := by
  have inside : Inside low high samples ↔
      ∀ sample ∈ samples, (sample < low || high < sample : Bool) = false := by
    simp only [Bool.or_eq_false_iff, decide_eq_false_iff_not]
    rfl
  rw [Card.outside?, inside, ← List.findIdx?_eq_none_iff]
  rcases place : samples.findIdx? fun value => value < low || high < value with _ | index
  · exact iff_of_true rfl rfl
  · rcases found : samples.find? fun value => value < low || high < value with _ | value
    · rw [List.findIdx?_eq_none_iff.2 (by simpa using found)] at place
      cases place
    · exact iff_of_false nofun nofun

/-! ### Exact rounding -/

variable {q r value x y low high : ℚ} {k n : Int} {bits : Nat}

theorem read_zero : (read 0 : ℚ) = 0 :=
  Number.value_zero

theorem read_one : (read 1 : ℚ) = 1 :=
  Number.value_one

theorem read_two : (read 2 : ℚ) = 2 :=
  Number.value_two

theorem inside_iff {samples : List ℚ} :
    Inside low high samples ↔ ∀ sample ∈ samples, low ≤ sample ∧ sample ≤ high := by
  simp only [Inside, not_lt]

theorem truncate_intCast (k : Int) : truncate k = k := by
  rw [truncate, Int.floor_intCast, Int.ceil_intCast, ite_self]

/-- Less than one is cut off. -/
theorem truncate_near (q : ℚ) : |q - truncate q| < 1 := by
  rw [truncate, abs_lt]
  split
  · have low := Int.lt_floor_add_one q
    have high := Int.floor_le q
    constructor <;> linarith
  · have low := Int.le_ceil q
    have high := Int.ceil_lt_add_one q
    constructor <;> linarith

theorem roundAway_near (q : ℚ) : |(roundAway q : ℚ) - q| ≤ 1 / 2 := by
  rw [roundAway, abs_le]
  split
  · have low := Int.lt_floor_add_one (q + 1 / 2)
    have high := Int.floor_le (q + 1 / 2)
    constructor <;> linarith
  · have low := Int.le_ceil (q - 1 / 2)
    have high := Int.ceil_lt_add_one (q - 1 / 2)
    constructor <;> linarith

theorem roundAway_intCast (k : Int) : roundAway k = k := by
  obtain ⟨low, high⟩ := abs_le.1 (roundAway_near k)
  have below : (roundAway k : ℚ) < k + 1 := by linarith
  have above : (k : ℚ) < roundAway k + 1 := by linarith
  norm_cast at below above
  omega

theorem roundAway_mono (le : q ≤ r) : roundAway q ≤ roundAway r := by
  rw [roundAway, roundAway]
  split
  · rename_i nonneg
    rw [if_pos (nonneg.trans le)]
    exact Int.floor_le_floor (by linarith)
  · rename_i negative
    split
    · -- Of different signs, the numbers are rounded to either side of zero.
      rename_i nonneg
      have nonpos : ⌈q - 1 / 2⌉ ≤ 0 := Int.ceil_le.2 (by push_cast; linarith)
      exact nonpos.trans (Int.floor_nonneg.2 (by linarith))
    · exact Int.ceil_le_ceil (by linarith)

/-- A number between whole numbers is rounded to one between them. -/
theorem roundAway_mem (low : 0 ≤ q) (high : q ≤ n) : 0 ≤ roundAway q ∧ roundAway q ≤ n := by
  have above := roundAway_mono (q := ((0 : Int) : ℚ)) (by simpa using low)
  have below := roundAway_mono high
  rw [roundAway_intCast] at above below
  exact ⟨above, below⟩

theorem saturate_mono (le : k ≤ n) : saturate k ≤ saturate n :=
  max_le_max_left _ (min_le_min_left _ le)

theorem saturate_eq_self (low : 0 ≤ k) (high : k < 2 ^ 63) : saturate k = k := by
  rw [saturate]
  omega

/-! ### Exact codes -/

/-- The last code of a scale of `2 ^ bits` codes. -/
def lastCode (bits : Nat) : Int :=
  2 ^ bits - 1

theorem lastCode_nonneg (bits : Nat) : 0 ≤ lastCode bits :=
  Int.sub_nonneg.2 (one_le_pow₀ (by norm_num))

theorem lastCode_pos (positive : 1 ≤ bits) : 0 < lastCode bits :=
  Int.sub_pos.2 (one_lt_pow₀ (by norm_num) (by omega))

theorem lastCode_cast_pos (positive : 1 ≤ bits) : (0 : ℚ) < lastCode bits :=
  Int.cast_pos.2 (lastCode_pos positive)

theorem lastCode_lt (small : bits ≤ 32) : lastCode bits < 2 ^ 63 := by
  have fits : (2 : Int) ^ bits ≤ 2 ^ 32 := pow_le_pow_right₀ (by norm_num) small
  rw [lastCode]
  omega

/-- The value that a code stands for. -/
def reconstruct (low high : ℚ) (bits : Nat) (code : Int) : ℚ :=
  low + code * (high - low) / lastCode bits

/-- The first and the last code stand for the ends of the range. -/
theorem reconstruct_ends (low high : ℚ) (positive : 1 ≤ bits) :
    reconstruct low high bits 0 = low ∧ reconstruct low high bits (lastCode bits) = high := by
  have last : (lastCode bits : ℚ) ≠ 0 := (lastCode_cast_pos positive).ne'
  rw [reconstruct, reconstruct, Int.cast_zero, zero_mul, zero_div, mul_div_cancel_left₀ _ last]
  exact ⟨add_zero low, add_sub_cancel low high⟩

theorem ofWord_last (bits : Nat) : (ofWord (1 <<< bits - 1) : ℚ) = lastCode bits := by
  have word : ((1 <<< bits - 1 : Nat) : ℚ) = lastCode bits := by
    rw [lastCode, Nat.one_shiftLeft, Nat.cast_sub Nat.one_le_two_pow]
    push_cast
    rfl
  exact word

theorem code_eq (value low high : ℚ) (bits : Nat) :
    code value low high bits = saturate (roundAway (onScale value low high (lastCode bits))) := by
  have unfolded : code value low high bits =
    saturate (truncate (roundAway (onScale value low high (ofWord (1 <<< bits - 1))) : ℚ)) := rfl
  rw [unfolded, truncate_intCast, ofWord_last]

section Scale

variable (range : low < high)
include range

/-- A larger value has no smaller code. -/
theorem code_mono (le : x ≤ y) : code x low high bits ≤ code y low high bits := by
  have width : 0 < high - low := sub_pos.2 range
  have last : (0 : ℚ) ≤ lastCode bits := Int.cast_nonneg (lastCode_nonneg bits)
  rw [code_eq, code_eq, onScale, onScale]
  refine saturate_mono (roundAway_mono ?_)
  gcongr

/-- The code of a value in the range is the rounded place of the value on the scale, which is
nowhere cut off. -/
theorem code_bounds (small : bits ≤ 32) (above : low ≤ value) (below : value ≤ high) :
    0 ≤ code value low high bits ∧ code value low high bits ≤ lastCode bits ∧
      code value low high bits = roundAway (onScale value low high (lastCode bits)) := by
  have width : 0 < high - low := sub_pos.2 range
  have last : (0 : ℚ) ≤ lastCode bits := Int.cast_nonneg (lastCode_nonneg bits)
  have fraction : (value - low) / (high - low) ≤ 1 := (div_le_one width).2 (by linarith)
  have first : 0 ≤ onScale value low high (lastCode bits : ℚ) :=
    mul_nonneg (div_nonneg (by linarith) width.le) last
  obtain ⟨low, high⟩ := roundAway_mem first (mul_le_of_le_one_left last fraction)
  rw [code_eq, saturate_eq_self low (high.trans_lt (lastCode_lt small))]
  exact ⟨low, high, rfl⟩

variable (positive : 1 ≤ bits)
include positive

/-- A code lies where it came from, or nearest to it, counted in steps. -/
theorem reconstruct_sub (code : Int) : reconstruct low high bits code - value =
    (code - onScale value low high (lastCode bits)) * ((high - low) / lastCode bits) := by
  have width : high - low ≠ 0 := (sub_pos.2 range).ne'
  have last : (lastCode bits : ℚ) ≠ 0 := (lastCode_cast_pos positive).ne'
  rw [reconstruct, onScale]
  field_simp
  ring

/-- A value in the range is within half a step of what its code stands for. -/
theorem code_near (small : bits ≤ 32) (above : low ≤ value) (below : value ≤ high) :
    |reconstruct low high bits (code value low high bits) - value| ≤
      (high - low) / lastCode bits / 2 := by
  have step : 0 ≤ (high - low) / lastCode bits :=
    div_nonneg (sub_nonneg.2 range.le) (lastCode_cast_pos positive).le
  obtain ⟨-, -, rounded⟩ := code_bounds range small above below
  rw [reconstruct_sub range positive, rounded, abs_mul, abs_of_nonneg step]
  calc _ ≤ 1 / 2 * ((high - low) / lastCode bits) :=
        mul_le_mul_of_nonneg_right (roundAway_near _) step
    _ = (high - low) / lastCode bits / 2 := by ring

/-- Every code of the scale is that of the value which it stands for. -/
theorem code_reconstruct (small : bits ≤ 32) (first : 0 ≤ k) (last : k ≤ lastCode bits) :
    code (reconstruct low high bits k) low high bits = k := by
  have width : high - low ≠ 0 := (sub_pos.2 range).ne'
  have nonzero : (lastCode bits : ℚ) ≠ 0 := (lastCode_cast_pos positive).ne'
  have place : onScale (reconstruct low high bits k) low high (lastCode bits : ℚ) = k := by
    rw [reconstruct, onScale, add_sub_cancel_left]
    field_simp
  rw [code_eq, place, roundAway_intCast, saturate_eq_self first (last.trans_lt (lastCode_lt small))]

/-- The codes of a scale stand for values in its range. -/
theorem reconstruct_mem (first : 0 ≤ k) (last : k ≤ lastCode bits) :
    low ≤ reconstruct low high bits k ∧ reconstruct low high bits k ≤ high := by
  have mono : ∀ {k n : Int}, k ≤ n → reconstruct low high bits k ≤ reconstruct low high bits n := by
    intro k n le
    have width : 0 < high - low := sub_pos.2 range
    have pos := lastCode_cast_pos positive
    rw [reconstruct, reconstruct]
    gcongr
  obtain ⟨lowest, highest⟩ := reconstruct_ends low high positive
  constructor
  · calc low = reconstruct low high bits 0 := lowest.symm
      _ ≤ reconstruct low high bits k := mono first
  · calc reconstruct low high bits k ≤ reconstruct low high bits (lastCode bits) := mono last
      _ = high := highest

end Scale

/-! ### Exact periods -/

/-- A number inside one period is, in periods, the fraction of the number. -/
theorem wrap_div (pos : 0 < y) (x : ℚ) : wrap x y / y = Int.fract (x / y) := by
  have rest : (remainder x y : ℚ) / y = x / y - truncate (x / y) := by
    have unfolded : (remainder x y : ℚ) = x - y * truncate (x / y) := rfl
    rw [unfolded, sub_div, mul_div_cancel_left₀ _ pos.ne']
  have period : (magnitude y : ℚ) = y := abs_of_pos pos
  obtain ⟨low, high⟩ := abs_lt.1 (truncate_near (x / y))
  rw [wrap, read_zero, period, eq_comm, Int.fract_eq_iff]
  split
  · -- The quotient was negative and cut off upward, so that the whole periods are one fewer.
    rename_i negative
    have below := div_neg_of_neg_of_pos negative pos
    rw [rest] at below
    rw [add_div, rest, div_self pos.ne']
    exact ⟨by linarith, by linarith, truncate (x / y) - 1, by push_cast; ring⟩
  · rename_i nonneg
    have above := div_nonneg (not_lt.1 nonneg) pos.le
    rw [rest] at above ⊢
    exact ⟨above, high, truncate (x / y), by ring⟩

end Reading

/-! ### From one reading to the other -/

/-- Numbers that are inside a finite range have values that are inside it. -/
theorem Reading.Inside.values {low high : Float} {samples : List Float}
    (lowFinite : low.isFinite = true) (highFinite : high.isFinite = true)
    (inside : Inside low high samples) (numbers : ∀ sample ∈ samples, sample.isNaN = false) :
    Inside (Number.value low) (Number.value high) (samples.map Number.value) := by
  rw [inside_iff, List.forall_mem_map]
  intro sample member
  obtain ⟨above, below⟩ := inside sample member
  exact Number.value_mem_of_inside lowFinite highFinite (numbers sample member) above below

end Metronome
