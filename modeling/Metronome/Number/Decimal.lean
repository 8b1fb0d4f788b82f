/-
Module: Metronome.Number.Decimal
Purpose: The fewest decimal digits that read back as a double, and rounding to significant digits.
Trusted boundary: none
Main exports:
  Decimal, Decimal.shortest, Decimal.render, Decimal.significant, text, roundSignificant
-/
import Metronome.Number.Nearest

/-!
A positive double `m * 2 ^ e` stands for every real number that rounds to it.  Its shortest
decimal is found by walking down the decimal grids: on each the only candidates are the two
neighbours of the value, and the first grid with a candidate inside the rounding interval wins.
-/

namespace Metronome.Number

open Float.Model (UnpackedFloat)

/-- The decimal number `digits * 10 ^ exponent`. -/
structure Decimal where
  digits : Nat
  exponent : Int
deriving Repr, Inhabited, DecidableEq

namespace Decimal

/-- The two integer factors that bring `_ * 10 ^ exponent` and `_ * 2 ^ e` over one denominator. -/
def commonScale (exponent e : Int) : Nat × Nat :=
  (Nat.pow 10 exponent.toNat <<< (-e).toNat, Nat.pow 10 (-exponent).toNat <<< e.toNat)

/-- A decimal exponent whose power of ten exceeds `m * 2 ^ e`, by a few units at most. -/
def exponentAbove (m : Nat) (e : Int) : Int :=
  ((m.log2 : Int) + 1 + e) * 30103 / 100000 + 2

/-- The candidate of one decimal grid: the neighbour of `m * 2 ^ e` on the grid that lies in the
rounding interval, the nearer of two, and the upper one of two equally near. -/
def onGrid? (m : Nat) (e : Int) (exponent : Int) : Option Decimal :=
  let (unit, scale) := commonScale exponent (e - 2)
  let value := 4 * m * scale
  let lowGap := if m = 1 <<< 52 ∧ -1074 < e then 1 else 2
  let lower := (4 * m - lowGap) * scale
  let upper := (4 * m + 2) * scale
  let below := value / unit
  let above := below + 1
  let closed := m % 2 = 0
  let belowFits := if closed then lower ≤ below * unit else lower < below * unit
  let aboveFits := if closed then above * unit ≤ upper else above * unit < upper
  if belowFits then
    if aboveFits ∧ above * unit - value ≤ value - below * unit then some ⟨above, exponent⟩
    else some ⟨below, exponent⟩
  else if aboveFits then some ⟨above, exponent⟩
  else none

/-- The first candidate among `fuel` grids, from `exponent` downward. -/
def search (m : Nat) (e : Int) : Nat → Int → Decimal
  | 0, exponent => ⟨0, exponent⟩
  | fuel + 1, exponent => (onGrid? m e exponent).getD (search m e fuel (exponent - 1))

/-- The fewest digits that read back as `m * 2 ^ e`, nearest to it among those.  Seventeen digits
always suffice, and the first grid lies at most five places above the leading digit. -/
def shortest (m : Nat) (e : Int) : Decimal :=
  search m e 24 (exponentAbove m e)

/-- Positional notation: zeros fill up to the decimal point on either side, and no exponent is
written. -/
def render (d : Decimal) : String :=
  let digits := toString d.digits
  if 0 ≤ d.exponent then digits ++ "".pushn '0' d.exponent.toNat
  else
    let places := (-d.exponent).toNat
    let padded := "".pushn '0' (places + 1 - digits.length) ++ digits
    let whole := padded.length - places
    String.ofList (padded.toList.take whole) ++ "." ++ String.ofList (padded.toList.drop whole)

/-- The multiple of `10 ^ exponent` nearest to `m * 2 ^ e`, a half going to the even digit. -/
def nearestOnGrid (m : Nat) (e exponent : Int) : Nat :=
  let (unit, scale) := commonScale exponent e
  let below := m * scale / unit
  let twiceRest := 2 * (m * scale % unit)
  if unit < twiceRest ∨ (twiceRest = unit ∧ below % 2 = 1) then below + 1 else below

/-- The first of `fuel` grids, from `exponent` downward, on which the value has `count` digits,
and the digits there. -/
def significantSearch (count m : Nat) (e : Int) : Nat → Int → Decimal
  | 0, exponent => ⟨nearestOnGrid m e exponent, exponent⟩
  | fuel + 1, exponent =>
      let (unit, scale) := commonScale exponent e
      if Nat.pow 10 (count - 1) ≤ m * scale / unit then ⟨nearestOnGrid m e exponent, exponent⟩
      else significantSearch count m e fuel (exponent - 1)

/-- The decimal of `count` significant digits nearest to `m * 2 ^ e`, a half going to the even
digit. -/
def significant (count m : Nat) (e : Int) : Decimal :=
  significantSearch count m e 8 (exponentAbove m e - count)

/-- The double nearest to a decimal. -/
def toFloat (d : Decimal) : Float :=
  Float.ofScientific d.digits (d.exponent < 0) d.exponent.natAbs

end Decimal

/-- The minus sign of a negative number. -/
def signText : UnpackedFloat.Sign → String
  | .negative => "-"
  | .positive => ""

/-- The text of a double in every message: the shortest digits that read back, positional, without
a trailing `.0`. -/
def text (x : Float) : String :=
  match x.toModel.unpack with
  | .notANumber => "NaN"
  | .infinity sign => signText sign ++ "inf"
  | .zero sign => signText sign ++ "0"
  | .finite sign m e _ => signText sign ++ (Decimal.shortest m e).render

/-- A double rounded to `count` significant decimal digits; zeros, infinities and NaN stay. -/
def roundSignificant (count : Nat) (x : Float) : Float :=
  match x.toModel.unpack with
  | .finite sign m e _ =>
      let rounded := (Decimal.significant count m e).toFloat
      match sign with
      | .negative => -rounded
      | .positive => rounded
  | _ => x

end Metronome.Number
