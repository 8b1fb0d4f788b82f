/-
Module: Metronome.Text.Hex
Purpose: Words as upper-case hexadecimal of at least a given width.
Trusted boundary: none
Main exports:
  hexWord
-/
import Metronome.Text.Quoted

namespace Metronome.Text

/-- A word in upper-case hexadecimal, filled with zeros on the left to `width` digits.  A longer
word is written in full. -/
def hexWord (width word : Nat) : String :=
  let digits := hexDigits true word
  String.ofList (List.replicate (width - digits.length) '0' ++ digits)

end Metronome.Text
