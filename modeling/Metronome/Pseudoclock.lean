/-
Module: Metronome.Pseudoclock
Purpose: The clock that drives all devices, and the waits at which it halts.
Trusted boundary: none
Main exports:
  Wait, Pseudoclock, Pseudoclock.create, Pseudoclock.addWait
-/
import Metronome.Ordered
import Metronome.TimeGrid

namespace Metronome

/-- A halt of the clock until a trigger arrives. -/
structure Wait where
  position : Nat
  label : String
  time : Float
  /-- The seconds after which the clock goes on without a trigger. -/
  timeout : Option Float
deriving Inhabited

/-- The clock of a setup. -/
structure Pseudoclock where
  name : String
  /-- The shortest tick in seconds, and on the grid. -/
  minPeriod : Float
  minPositions : Nat
  timeBase : Float
  waits : Ordered Wait.position
deriving Inhabited

namespace Pseudoclock

/-- A clock without waits.  Its shortest tick has to be one position at least. -/
def create (name : String) (minPeriod timeBase : Float) : Except Fault Pseudoclock :=
  let refuse : Except Fault Pseudoclock :=
    .error (.limit name (.minimumPeriod minPeriod timeBase))
  match TimeGrid.position minPeriod timeBase name with
  | .ok positions =>
      if 1 ≤ positions then .ok ⟨name, minPeriod, positions, timeBase, .empty⟩ else refuse
  | .error _ => refuse

/-- The name of a wait in every report. -/
def waitName (clock : Pseudoclock) (label : String) : String :=
  clock.name ++ " wait '" ++ label ++ "'"

/-- The clock with a wait more, after the start and where no other wait is. -/
def addWait (clock : Pseudoclock) (label : String) (t : Float) (timeout : Option Float) :
    Except Fault Pseudoclock := do
  let position ← TimeGrid.position t clock.timeBase clock.name
  let refuse (cause : TimelineCause) : Except Fault Unit :=
    .error (.timeline (clock.waitName label) t cause)
  if position = 0 then refuse .waitAtStart
  if let some timeout := timeout then
    if !timeout.isFinite || timeout ≤ 0 then refuse (.waitTimeout timeout)
  if let some other := clock.waits.find? position then refuse (.waitTaken other.label)
  return { clock with waits := clock.waits.insert ⟨position, label, t, timeout⟩ }

/-- The position of the last wait, zero without waits. -/
def lastWait (clock : Pseudoclock) : Nat :=
  (clock.waits.items.getLast?.map Wait.position).getD 0

/-- The clock without waits. -/
def clear (clock : Pseudoclock) : Pseudoclock :=
  { clock with waits := .empty }

end Pseudoclock

end Metronome
