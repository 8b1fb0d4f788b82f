/-
Module: Metronome.Proofs.Hex
Purpose: Words in hexadecimal read back, and are as wide as they were asked to be.
Trusted boundary: none
Main exports:
  Text.hexValue?, Text.hexValue?_hexWord, Text.length_hexWord
-/
import Mathlib
import Metronome.Text.Hex

namespace Metronome.Text

variable {value width : Nat}

/-- The value of an upper-case hexadecimal digit. -/
def hexDigitValue? (c : Char) : Option Nat :=
  if '0' ≤ c ∧ c ≤ '9' then some (c.toNat - '0'.toNat)
  else if 'A' ≤ c ∧ c ≤ 'F' then some (c.toNat - 'A'.toNat + 10)
  else none

/-- The number that upper-case hexadecimal digits continue from those already read. -/
def hexValueFrom? (read : Nat) (digits : List Char) : Option Nat :=
  digits.foldlM (fun value c => (16 * value + ·) <$> hexDigitValue? c) read

/-- The number written in upper-case hexadecimal digits, and in nothing else. -/
def hexValue? (text : String) : Option Nat :=
  if text.isEmpty then none else hexValueFrom? 0 text.toList

theorem hexDigitValue?_hexDigit :
    ∀ value < 16, hexDigitValue? (hexDigit true value) = some value := by
  decide

theorem hexValueFrom?_append (read : Nat) (first second : List Char) :
    hexValueFrom? read (first ++ second) =
      (hexValueFrom? read first).bind fun value => hexValueFrom? value second :=
  List.foldlM_append

theorem hexValueFrom?_hexDigit (read : Nat) (small : value < 16) :
    hexValueFrom? read [hexDigit true value] = some (16 * read + value) := by
  simp [hexValueFrom?, hexDigitValue?_hexDigit value small]

/-- Zeros in front do not count. -/
theorem hexValueFrom?_zeros (count : Nat) :
    hexValueFrom? 0 (List.replicate count '0') = some 0 := by
  induction count with
  | zero => rfl
  | succ count ih =>
      rw [List.replicate_succ', hexValueFrom?_append, ih]
      rfl

/-- Enough digits of a number are the number. -/
theorem hexValueFrom?_hexDigitsWithin {fuel : Nat} (enough : value < 16 ^ (fuel + 1)) :
    hexValueFrom? 0 (hexDigitsWithin true (fuel + 1) value) = some value := by
  induction fuel generalizing value with
  | zero =>
      rw [hexDigitsWithin, if_pos (by omega), hexValueFrom?_hexDigit 0 (by omega)]
      simp
  | succ fuel ih =>
      rw [hexDigitsWithin]
      split
      · rename_i small
        rw [hexValueFrom?_hexDigit 0 small]
        simp
      · have fewer : value / 16 < 16 ^ (fuel + 1) := Nat.div_lt_of_lt_mul (by rwa [← Nat.pow_succ'])
        rw [hexValueFrom?_append, ih fewer]
        change hexValueFrom? (value / 16) _ = _
        rw [hexValueFrom?_hexDigit _ (Nat.mod_lt _ (by omega)), Nat.div_add_mod]

theorem hexDigits_ne_nil : hexDigits true value ≠ [] := by
  rw [hexDigits, hexDigitsWithin]
  split <;> simp

theorem hexValueFrom?_hexDigits : hexValueFrom? 0 (hexDigits true value) = some value := by
  apply hexValueFrom?_hexDigitsWithin
  have below : value < 2 ^ (value.log2 + 1) := Nat.lt_log2_self
  calc value < 2 ^ (value.log2 + 1) := below
    _ ≤ 2 ^ (4 * (value.log2 / 4 + 1)) := Nat.pow_le_pow_right (by omega) (by omega)
    _ = 16 ^ (value.log2 / 4 + 1) := by rw [Nat.pow_mul]

/-- A word in hexadecimal reads back. -/
theorem hexValue?_hexWord (width value : Nat) : hexValue? (hexWord width value) = some value := by
  have spelled : (hexWord width value).isEmpty = false := by
    rw [hexWord, String.isEmpty_eq_false_iff]
    simp [hexDigits_ne_nil]
  rw [hexValue?, spelled, hexWord, String.toList_ofList, if_neg Bool.false_ne_true,
    hexValueFrom?_append, hexValueFrom?_zeros]
  exact hexValueFrom?_hexDigits

/-- A number has no more digits than it needs. -/
theorem length_hexDigitsWithin_le (fuel : Nat) (fits : value < 16 ^ (width + 1)) :
    (hexDigitsWithin true fuel value).length ≤ width + 1 := by
  induction fuel generalizing value width with
  | zero => simp [hexDigitsWithin]
  | succ fuel ih =>
      rw [hexDigitsWithin]
      split
      · simp
      · rename_i large
        cases width with
        | zero => omega
        | succ width =>
            have fewer : value / 16 < 16 ^ (width + 1) :=
              Nat.div_lt_of_lt_mul (by rwa [← Nat.pow_succ'])
            have shorter := ih fewer
            simp only [List.length_append, List.length_singleton]
            omega

/-- A word that fits a width is written with exactly so many digits. -/
theorem length_hexWord (positive : 0 < width) (fits : value < 16 ^ width) :
    (hexWord width value).length = width := by
  obtain ⟨width, rfl⟩ := Nat.exists_eq_add_of_lt positive
  rw [Nat.zero_add] at fits ⊢
  have fewer := length_hexDigitsWithin_le (value.log2 / 4 + 1) fits
  rw [hexWord, String.length_ofList, List.length_append, List.length_replicate, hexDigits]
  omega

end Metronome.Text
