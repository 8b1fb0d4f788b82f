/-
Module: Metronome.Text.Quoted
Purpose: Quoted names, and the bracketed list of names that a report of an unknown name ends with.
Trusted boundary: none
Main exports:
  hexDigits, quote, quoteList
-/
import Metronome.Text.Unprintable

/-!
A quoted name stands between double quotes.  The quote and the backslash are written after a
backslash, the common controls by their letter, and every other character without a glyph by its
code point.
-/

namespace Metronome.Text

/-- One hexadecimal digit, with the letters in upper or in lower case. -/
def hexDigit (upper : Bool) (value : Nat) : Char :=
  if value < 10 then Char.ofNat (48 + value)
  else Char.ofNat ((if upper then 55 else 87) + value)

/-- The last `fuel` hexadecimal digits of a number, without zeros in front. -/
def hexDigitsWithin (upper : Bool) : Nat → Nat → List Char
  | 0, _ => []
  | fuel + 1, value =>
      if value < 16 then [hexDigit upper value]
      else hexDigitsWithin upper fuel (value / 16) ++ [hexDigit upper (value % 16)]

/-- The hexadecimal digits of a number, most significant first; zero has the digit `0`. -/
def hexDigits (upper : Bool) (value : Nat) : List Char :=
  hexDigitsWithin upper (value.log2 / 4 + 1) value

/-- The spelling of one character inside a quotation. -/
def quoteChar (c : Char) : List Char :=
  match c with
  | '"' => ['\\', '"']
  | '\\' => ['\\', '\\']
  | '\n' => ['\\', 'n']
  | '\r' => ['\\', 'r']
  | '\t' => ['\\', 't']
  | '\x00' => ['\\', '0']
  | c =>
      if isUnprintable c then ['\\', 'u', '\x7b'] ++ hexDigits false c.toNat ++ ['\x7d'] else [c]

/-- A name between double quotes. -/
def quote (name : String) : String :=
  String.ofList (['"'] ++ name.toList.flatMap quoteChar ++ ['"'])

/-- The quoted names between brackets, separated by commas. -/
def quoteList (names : List String) : String :=
  "[" ++ ", ".intercalate (names.map quote) ++ "]"

end Metronome.Text
