/-
Module: Metronome.Proofs.ExactQuotient
Purpose: A quotient of doubles that is a whole number is computed without an error.
Trusted boundary: none
Main exports:
  Number.roundWithAccuracy_exact, Number.exists_scaled_of_multiple, Number.div_of_multiple,
  Number.value_div_of_multiple
-/
import Mathlib
import Metronome.Proofs.Value

/-!
If the dividend is a multiple of the divisor, the odd part of the quotient divides the mantissa of
the dividend, so that it has no more than 53 bits.  The long division then leaves no remainder, and
what rounding drops are zeros.
-/

namespace Metronome.Number

open Float.Model (UnpackedFloat)
open Float.Model.UnpackedFloat

variable {m n k : Nat} {e f : Int} {x y : Float}

/-! ### Rounding of short mantissas -/

/-- Zeros at the end of a mantissa are dropped without a trace. -/
theorem shiftRight_zeros (m shift : Nat) :
    ExtendedMantissa.ofMantissaAndAccuracy (m * 2 ^ shift) .exact >>> shift =
      ExtendedMantissa.ofMantissaAndAccuracy m .exact := by
  induction shift generalizing m with
  | zero =>
      rw [Nat.pow_zero, Nat.mul_one]
      rfl
  | succ shift ih =>
      have dropped : ExtendedMantissa.ofMantissaAndAccuracy (m * 2 ^ (shift + 1)) .exact >>>
          (shift + 1) = (ExtendedMantissa.ofMantissaAndAccuracy (m * 2 * 2 ^ shift) .exact >>>
            shift).shiftRightOne := by
        rw [Nat.pow_succ', Nat.mul_assoc]
        rfl
      rw [dropped, ih]
      simp [ExtendedMantissa.ofMantissaAndAccuracy, ExtendedMantissa.shiftRightOne]

/-- A mantissa that is short up to zeros at its end is kept when it is rounded. -/
theorem roundWithAccuracy_exact {zeros : Nat} (pos : 0 < m) (short : m < 2 ^ 53)
    (least : -1074 ≤ e + zeros) (long : e ≤ -1074 ∨ 2 ^ 52 ≤ m * 2 ^ zeros) (sign : Sign) :
    ∃ n f, Canonical n f ∧ scaled n f = scaled m (e + zeros) ∧
      roundWithAccuracy .binary64 sign (m * 2 ^ zeros) e .exact = float sign n f := by
  obtain ⟨shift, target, shifted⟩ := shifted_exponent (enough_of_long long) .exact
  have canonical := canonical_shifted target
  have bits := log2_le short
  rw [log2_mul_two_pow pos] at target
  obtain ⟨kept, rfl⟩ : ∃ kept, zeros = kept + shift := ⟨zeros - shift, by omega⟩
  have split : m * 2 ^ (kept + shift) = m * 2 ^ kept * 2 ^ shift := by
    rw [Nat.pow_add, Nat.mul_assoc]
  rw [split] at shifted canonical ⊢
  rw [Nat.mul_div_cancel _ (Nat.two_pow_pos shift)] at canonical
  have exponent : e + (kept + shift : Nat) = e + shift + kept := by
    push_cast
    ring
  refine ⟨m * 2 ^ kept, e + shift, canonical, by rw [scaled_shift, exponent], ?_⟩
  rw [shiftRight_zeros] at shifted
  unfold roundWithAccuracy
  rw [shifted]
  dsimp only
  rw [show (ExtendedMantissa.ofMantissaAndAccuracy (m * 2 ^ kept) .exact).roundedMantissa =
    m * 2 ^ kept from rfl, shift_none canonical.high canonical.least]
  rfl

/-! ### Multiples -/

theorem scaled_left_inj : scaled m e = scaled n e ↔ m = n := by
  rw [scaled, scaled, mul_left_inj' (two_zpow_pos e).ne', Nat.cast_inj]

/-- How many times one number is contained in another is a short number, up to zeros at its end. -/
theorem exists_scaled_of_multiple (mPos : 0 < m) (short : m < 2 ^ 53)
    (multiple : scaled m e = k * scaled n f) :
    ∃ odd zeros, 0 < odd ∧ odd < 2 ^ 53 ∧ k = odd * 2 ^ zeros := by
  -- Both numbers are written with the smaller exponent.
  obtain ⟨low, i, j, rfl, rfl⟩ : ∃ (low : Int) (i j : Nat), e = low + i ∧ f = low + j :=
    ⟨min e f, (e - min e f).toNat, (f - min e f).toNat, by omega, by omega⟩
  have whole : m * 2 ^ i = k * (n * 2 ^ j) := by
    rw [← scaled_shift, ← scaled_shift] at multiple
    rw [← scaled_left_inj (e := low), multiple, scaled, scaled]
    push_cast
    ring
  have nonzero : k ≠ 0 := by
    rintro rfl
    rw [Nat.zero_mul] at whole
    exact absurd whole (Nat.mul_pos mPos (Nat.two_pow_pos i)).ne'
  obtain ⟨zeros, odd, isOdd, rfl⟩ := Nat.exists_eq_two_pow_mul_odd nonzero
  have divides : odd ∣ m := by
    refine (Nat.Coprime.pow_right i isOdd.coprime_two_right).dvd_of_dvd_mul_right ?_
    exact ⟨2 ^ zeros * (n * 2 ^ j), by rw [whole]; ring⟩
  exact ⟨odd, zeros, isOdd.pos, (Nat.le_of_dvd mPos divides).trans_lt short, Nat.mul_comm ..⟩

/-! ### Quotients -/

/-- Where a quotient has 53 bits or goes down to the least exponent, the dividend is divided without
a remainder, and the quotient ends in the zeros that the exponent does not count. -/
theorem exists_exact_mantissa {odd zeros : Nat} (nPos : 0 < n) (short : odd < 2 ^ 53)
    (multiple : scaled m e = (odd * 2 ^ zeros : Nat) * n)
    (long : e ≤ -1074 ∨ 2 ^ 52 * n ≤ m) :
    ∃ left : Nat, e + left = zeros ∧ m = odd * 2 ^ left * n := by
  have divisor : (0 : ℚ) < n := Nat.cast_pos.2 nPos
  have ends : e ≤ zeros := by
    rcases long with least | long
    · omega
    · have less : (2 : ℚ) ^ (52 + e) * n < 2 ^ (53 + zeros : Int) * n := by
        calc (2 : ℚ) ^ (52 + e) * n = scaled (2 ^ 52 * n) e := by
              rw [scaled, zpow_add₀ (by norm_num)]
              push_cast
              ring
          _ ≤ scaled m e := scaled_le_scaled long e
          _ = (odd * 2 ^ zeros : Nat) * n := multiple
          _ < (2 ^ 53 * 2 ^ zeros : Nat) * n := by
              refine mul_lt_mul_of_pos_right ?_ divisor
              exact_mod_cast Nat.mul_lt_mul_of_pos_right short (Nat.two_pow_pos zeros)
          _ = 2 ^ (53 + zeros : Int) * n := by
              rw [zpow_add₀ (by norm_num), zpow_natCast]
              push_cast
              norm_num
      have order := lt_of_mul_lt_mul_right less divisor.le
      rw [zpow_lt_zpow_iff_right₀ (by norm_num)] at order
      omega
  obtain ⟨left, raised⟩ : ∃ left : Nat, e + left = zeros := ⟨(zeros - e).toNat, by omega⟩
  refine ⟨left, raised, scaled_left_inj.1 (multiple.trans ?_)⟩
  rw [mul_right_comm, scaled_shift, raised, scaled, zpow_natCast]
  push_cast
  ring

/-- The quotient of a multiple is the whole number by which it is one. -/
theorem div_of_multiple {s t : Sign} (mPos : 0 < m) (nPos : 0 < n) (short : m < 2 ^ 53)
    (multiple : scaled m e = k * scaled n f) :
    ∃ p g, Canonical p g ∧ scaled p g = k ∧
      div .binary64 (.finite s m e mPos) (.finite t n f nPos) = float (s / t) p g := by
  obtain ⟨shift, g, split, long, computed⟩ :=
    div_eq_round (s := s) (t := t) (e := e) (f := f) mPos nPos
  obtain ⟨odd, zeros, oddPos, oddShort, rfl⟩ := exists_scaled_of_multiple mPos short multiple
  have moved : scaled (m * 2 ^ shift) g = (odd * 2 ^ zeros : Nat) * n := by
    rw [← mul_left_inj' (two_zpow_pos f).ne', mul_assoc, ← scaled, ← multiple, scaled_shift, split,
      scaled, scaled, zpow_add₀ (by norm_num) _ f, mul_assoc]
  obtain ⟨left, raised, exact⟩ := exists_exact_mantissa nPos oddShort moved long
  rw [exact, Nat.mul_div_cancel _ nPos, Nat.mul_mod_left] at computed
  rw [exact] at long
  obtain ⟨p, h, canonical, same, rounded⟩ := roundWithAccuracy_exact oddPos oddShort (by omega)
    (long.imp_right fun full => Nat.le_of_mul_le_mul_right full nPos) (s / t)
  refine ⟨p, h, canonical, ?_, computed.trans rounded⟩
  rw [same, raised, scaled, zpow_natCast]
  push_cast
  rfl

/-- The quotient of a double that is a multiple of another one is the whole number by which it is
one, or infinite if that is too large. -/
theorem value_div_of_multiple (dividend : Nonnegative x) (divisor : Nonnegative y)
    (xPos : 0 < value x) (multiple : value x = k * value y) :
    (x / y).toModel.unpack = .infinity .positive ∨
      Nonnegative (x / y) ∧ value (x / y) = k := by
  have yPos : 0 < value y := by
    refine lt_of_le_of_ne divisor.value_nonneg fun zero => xPos.ne' ?_
    rw [multiple, ← zero, mul_zero]
  obtain ⟨m, e, canonical, -, unpacked⟩ := dividend
  obtain ⟨n, f, -, -, otherUnpacked⟩ := divisor
  have quotient : x / y =
      .ofModel (.pack (div .binary64 x.toModel.unpack y.toModel.unpack)) := rfl
  rw [value_of_unpack unpacked] at xPos multiple
  rw [value_of_unpack otherUnpacked] at yPos multiple
  have mPos := pos_of_scaled_pos xPos
  have nPos := pos_of_scaled_pos yPos
  rw [float_of_pos mPos] at unpacked
  rw [float_of_pos nPos] at otherUnpacked
  obtain ⟨p, g, result, same, computed⟩ :=
    div_of_multiple (s := .positive) (t := .positive) mPos nPos canonical.high multiple
  rw [← otherUnpacked, ← unpacked] at computed
  rw [quotient, computed]
  have repacked := unpack_pack_float result .positive
  split at repacked
  · rename_i bounded
    refine Or.inr ⟨⟨p, g, result, bounded, repacked⟩, ?_⟩
    rw [← same]
    exact value_of_unpack repacked
  · exact Or.inl repacked

end Metronome.Number
