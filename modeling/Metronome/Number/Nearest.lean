/-
Module: Metronome.Number.Nearest
Purpose: Rounding, conversion and remainder of doubles, by exact integer arithmetic.
Trusted boundary: none
Main exports:
  nearestNat, nearest, isWhole, ofWord, toWord, toSigned, clampUnit, atLeast, remainder, wrap
-/

/-!
Times are doubles, positions are natural numbers, and every crossing between the two is a rounding.
The functions here are written over the sign, mantissa and exponent of a double, so that what they
compute is a statement about integers and not about a mathematics library.
-/

namespace Metronome.Number

open Float.Model (UnpackedFloat)

/-- The natural number nearest to `m * 2 ^ e`, a half going up. -/
def nearestNat (m : Nat) (e : Int) : Nat :=
  if 0 ≤ e then m <<< e.toNat
  else (2 * m + 1 <<< (-e).toNat) / 2 <<< (-e).toNat

/-- The double of the given sign nearest to `m * 2 ^ e`. -/
def ofScaled (sign : UnpackedFloat.Sign) (m : Nat) (e : Int) : Float :=
  .ofModel (.pack (.round .binary64 sign m e))

/-- The whole number nearest to a double, a half going away from zero.  Zeros, infinities and NaN
are their own nearest whole numbers. -/
def nearest (x : Float) : Float :=
  match x.toModel.unpack with
  | .finite sign m e _ => if 0 ≤ e then x else ofScaled sign (nearestNat m e) 0
  | _ => x

/-- A double without a fractional part. -/
def isWhole (x : Float) : Bool :=
  nearest x == x

/-- The double nearest to a number below `2 ^ 64`. -/
def ofWord (n : Nat) : Float :=
  n.toUInt64.toFloat

/-- The integer part as an unsigned 64-bit number: values past either end stop there, and NaN is
zero. -/
def toWord (x : Float) : Nat :=
  x.toUInt64.toNat

/-- The integer part as a signed 64-bit number: values past either end stop there, and NaN is
zero. -/
def toSigned (x : Float) : Int :=
  x.toModel.toInt64.toInt

/-- The nearest point of the unit interval.  NaN stays NaN. -/
def clampUnit (x : Float) : Float :=
  if x < 0 then 0 else if 1 < x then 1 else x

/-- The larger of a number and a bound; NaN gives the bound. -/
def atLeast (bound x : Float) : Float :=
  if bound < x then x else bound

/-- The remainder of the division truncated toward zero.  It is exact and carries the sign of the
dividend; a zero divisor and an infinite dividend have none. -/
def remainder (x y : Float) : Float :=
  match x.toModel.unpack, y.toModel.unpack with
  | .finite sign m e _, .finite _ n f _ =>
      let low := min e f
      ofScaled sign (m <<< (e - low).toNat % n <<< (f - low).toNat) low
  | .zero _, .finite .. => x
  | .zero _, .infinity _ => x
  | .finite .., .infinity _ => x
  | _, _ => .ofModel (.pack .notANumber)

/-- The remainder moved into `[0, |y|]`: a negative one is raised by one period, which may round up
to the period itself. -/
def wrap (x y : Float) : Float :=
  let rest := remainder x y
  if rest < 0 then rest + y.abs else rest

end Metronome.Number
