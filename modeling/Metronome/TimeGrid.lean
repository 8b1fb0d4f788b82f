/-
Module: Metronome.TimeGrid
Purpose: The integer positions that all timing is computed on, and the ways between them and seconds.
Trusted boundary: none
Main exports:
  TimeGrid.last, TimeGrid.seconds, TimeGrid.position, TimeGrid.samplePeriod
-/
import Metronome.Fault

/-!
A time base gives the number of positions per second.  Times are rounded to the nearest position
when they enter, and everything between is arithmetic on natural numbers.
-/

namespace Metronome.TimeGrid

/-- The last usable position: up to it doubles hold every natural number. -/
def last : Nat := 1 <<< 53

/-- A position, or a distance between two, in seconds. -/
def seconds (position : Nat) (timeBase : Float) : Float :=
  Number.ofWord position / timeBase

/-- The position nearest to a time.  Negative and undefined times are refused, and times past the
last position; the fault names the output that asks. -/
def position (t timeBase : Float) (output : String) : Except Fault Nat :=
  if !t.isFinite || t < 0 then .error (.timeline output t .timeUndefined)
  else
    let rounded := Number.nearest (t * timeBase)
    if Number.ofWord last < rounded then
      .error (.timeline output t (.beyondGrid (seconds last timeBase)))
    else .ok (Number.toWord rounded)

/-- The whole number of positions between two samples of a ramp.  A rate whose period is no whole
number, to a millionth of itself, is refused, since the samples could not keep to the grid. -/
def samplePeriod (rate timeBase : Float) (output : String) (t : Float) : Except Fault Nat :=
  if !rate.isFinite || rate ≤ 0 then .error (.timeline output t (.rateNotPositive rate))
  else
    let period := timeBase / rate
    let rounded := Number.nearest period
    if Number.ofWord last < rounded then .error (.timeline output t (.rateBelowResolution rate))
    else if rounded < 1 || 1e-6 * Number.atLeast 1 rounded < (period - rounded).abs then
      .error (.timeline output t (.rateOffGrid rate timeBase))
    else .ok (Number.toWord rounded)

end Metronome.TimeGrid
