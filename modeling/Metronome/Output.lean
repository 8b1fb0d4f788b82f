/-
Module: Metronome.Output
Purpose: What the clock and the sampler see of a channel, and its samples on the ticks of a program.
Trusted boundary: none
Main exports:
  Output, Channel.toOutput, Output.value, Output.samples
-/
import Metronome.Channel
import Metronome.Program

/-!
At each tick the latest instruction that has started determines the value: before the first one
the default, a constant its level, and a ramp the value at the fraction of its domain that has
passed.  What has started stays so, even if the positions of the ticks begin again at zero.  A
sample has to be finite, and on a digital output `0` or `1`.
-/

namespace Metronome

/-- A timeline with the data that its samples depend on. -/
structure Output where
  name : String
  kind : ChannelKind
  default : Float
  line : ClockLine
  timeline : Timeline
deriving Inhabited

/-- A channel seen on a clock line. -/
def Channel.toOutput (channel : Channel) (line : ClockLine) : Output :=
  ⟨channel.output, channel.kind, channel.default, line, channel.timeline⟩

/-- The positions from a start to a position.  Where positions have begun again at zero since the
start, they are counted on through the last word. -/
def TimeGrid.passed (start position : Nat) : Nat :=
  if start ≤ position then position - start else UInt64.size - (start - position)

/-- The value of a placed instruction at a position. -/
def Placement.value (placement : Placement) (timeBase : Float) (position : Nat) : Float :=
  match placement.ramp with
  | none => placement.instruction.level
  | some span =>
      let length := span.stop - placement.start
      placement.instruction.evaluate
        (Number.ofWord (TimeGrid.passed placement.start position) / Number.ofWord length)
        (TimeGrid.seconds length timeBase)

namespace Output

/-- Moves past the placements that have started at a position.  Returns the last of them, or the
current one if there is none, and those still to come. -/
def advance (position : Nat) :
    Option Placement → List Placement → Option Placement × List Placement
  | current, [] => (current, [])
  | current, next :: rest =>
      if next.start ≤ position then advance position (some next) rest else (current, next :: rest)

/-- The value while an instruction is current. -/
def value (output : Output) (timeBase : Float) (position : Nat) (current : Option Placement) :
    Float :=
  match current with
  | none => output.default
  | some placement => placement.value timeBase position

/-- Accepts a sample that the output can produce. -/
def checkSample (output : Output) (timeBase : Float) (position : Nat) (value : Float) :
    Except Fault Unit :=
  let time := TimeGrid.seconds position timeBase
  if !value.isFinite then .error (.rampValue output.name time value)
  else if output.kind = .digital && value != 0 && value != 1 then
    .error (.digitalValue output.name time value)
  else .ok ()

/-- The samples on the remaining ticks, after those already taken, which are listed from the last to
the first. -/
def samplesFrom (output : Output) (timeBase : Float) (taken : List Float)
    (current : Option Placement) (upcoming : List Placement) :
    List Tick → Except Fault (List Float)
  | [] => .ok taken.reverse
  | tick :: rest =>
      let (current, upcoming) := advance tick.position current upcoming
      let sample := output.value timeBase tick.position current
      match output.checkSample timeBase tick.position sample with
      | .error fault => .error fault
      | .ok () => output.samplesFrom timeBase (sample :: taken) current upcoming rest

/-- One sample for each tick on the output's line. -/
def samples (output : Output) (program : Program) : Except Fault (List Float) :=
  output.samplesFrom program.timeBase [] none output.timeline.items
    (program.lineTicks output.line)

end Output

end Metronome
