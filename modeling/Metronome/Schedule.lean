/-
Module: Metronome.Schedule
Purpose: What a set of outputs and waits demands of the clock, checked against a stop time.
Trusted boundary: none
Main exports:
  Window, Schedule, Schedule.of, Schedule.segments
-/
import Metronome.Output
import Metronome.Pseudoclock

/-!
The clock has to tick at its boundaries: the start of the experiment, every start of an
instruction and every wait.  Between two boundaries it ticks at the sample period of the ramps
that are active, so these have to agree.  Nothing here depends on which output asks, except for
the names in faults.
-/

namespace Metronome

/-- The domain of a ramp and the output it belongs to. -/
structure Window where
  output : String
  start : Nat
  stop : Nat
  period : Nat
deriving Repr, Inhabited, DecidableEq

/-- The demands on the clock up to a stop position. -/
structure Schedule where
  stop : Nat
  /-- The ramps, in the order of their starts. -/
  windows : List Window
  waits : Ordered Wait.position
  boundaries : Ordered (id : Nat → Nat)

/-- From a boundary to the next one, or to the stop. -/
structure Segment where
  start : Nat
  next : Nat
deriving Repr, Inhabited, DecidableEq

namespace Output

/-- Accepts a placement that ends in time.  A ramp needs the fast line and a whole number of
samples. -/
def checkPlacement (output : Output) (timeBase : Float) (stop : Nat) (placement : Placement) :
    Except Fault Unit :=
  let seconds := fun position => TimeGrid.seconds position timeBase
  let refuse (cause : TimelineCause) : Except Fault Unit :=
    .error (.timeline output.name (seconds placement.start) cause)
  if stop ≤ placement.start then
    refuse (.startPastStop placement.instruction (seconds stop))
  else
    match placement.ramp with
    | none => .ok ()
    | some span =>
        let length := span.stop - placement.start
        if output.line = .slow then refuse .rampOnSlowLine
        else if stop < span.stop then refuse (.rampPastStop (seconds span.stop) (seconds stop))
        else if length % span.period ≠ 0 then
          refuse (.partialSample (seconds length) (seconds span.period)
            (Number.ofWord length / Number.ofWord span.period))
        else .ok ()

/-- Accepts an output all of whose placements end in time. -/
def checkTimeline (output : Output) (timeBase : Float) (stop : Nat) : Except Fault Unit :=
  output.timeline.items.forM (output.checkPlacement timeBase stop)

/-- The domains of an output's ramps. -/
def windows (output : Output) : List Window :=
  output.timeline.items.filterMap fun placement =>
    placement.ramp.map fun span => ⟨output.name, placement.start, span.stop, span.period⟩

end Output

namespace Window

/-- A position in the domain of a ramp other than its start. -/
def spans (window : Window) (position : Nat) : Bool :=
  window.start < position && position < window.stop

/-- Puts a ramp before the first one that does not start earlier. -/
def place (window : Window) : List Window → List Window
  | [] => [window]
  | first :: rest =>
      if window.start ≤ first.start then window :: first :: rest
      else first :: place window rest

end Window

namespace Schedule

/-- Accepts a wait before the stop that lies strictly inside no ramp. -/
def checkWait (clock : Pseudoclock) (windows : List Window) (timeBase : Float) (stop : Nat)
    (wait : Wait) : Except Fault Unit :=
  let name := clock.waitName wait.label
  let time := TimeGrid.seconds wait.position timeBase
  if stop ≤ wait.position then
    .error (.timeline name time (.waitPastStop (TimeGrid.seconds stop timeBase)))
  else
    match windows.find? fun window => window.spans wait.position with
    | some window => .error (.conflict window.output name time .rampSpansWait)
    | none => .ok ()

/-- The demands of outputs and waits.  Outputs are checked before waits, each in order. -/
def of (clock : Pseudoclock) (outputs : List Output) (timeBase : Float) (stop : Nat) :
    Except Fault Schedule := do
  if stop = 0 then throw (.timeline clock.name 0 .stopNotPositive)
  outputs.forM fun output => output.checkTimeline timeBase stop
  let windows := outputs.flatMap Output.windows
  clock.waits.items.forM (checkWait clock windows timeBase stop)
  let starts := outputs.flatMap fun output => output.timeline.items.map Placement.start
  return {
    stop
    windows := windows.foldr Window.place []
    waits := clock.waits
    boundaries := .ofList (0 :: starts ++ clock.waits.items.map Wait.position) }

/-- Each boundary of a list with the one after it, and the last with the stop. -/
def segmentsOf (stop : Nat) : List Nat → List Segment
  | [] => []
  | [start] => [⟨start, stop⟩]
  | start :: next :: rest => ⟨start, next⟩ :: segmentsOf stop (next :: rest)

/-- The segments between boundaries. -/
def segments (schedule : Schedule) : List Segment :=
  segmentsOf schedule.stop schedule.boundaries.items

end Schedule

end Metronome
