/-
Module: Metronome.Channel
Purpose: One output with its timeline of instructions, and the rules for adding to it.
Trusted boundary: none
Main exports:
  Timeline, Timeline.overlapping?, Channel, Channel.create, Channel.place, Channel.record
-/
import Metronome.Ordered
import Metronome.Placement.Checked
import Metronome.TimeGrid

/-!
The instructions of a timeline start at distinct positions, and no instruction starts inside the
domain of a ramp.  Whether a new one fits is decided by its two neighbours, since the timeline it
is added to keeps the rule already.  Digital channels take the levels `0` and `1` and no ramps.
-/

namespace Metronome

/-- The placements of one output, at most one at each start. -/
abbrev Timeline := Ordered Placement.start

namespace Timeline

/-- The last position that any instruction occupies, zero without instructions. -/
def lastStop (timeline : Timeline) : Nat :=
  timeline.items.foldl (fun last placement => max last placement.stop) 0

/-- The instruction that a new placement collides with: one with the same start, the next one if it
starts before the new one ends, or the one before if it is a ramp that ends after the new start. -/
def overlapping? (timeline : Timeline) (added : Placement) : Option Placement :=
  let same := timeline.find? added.start
  let next := (timeline.next? added.start).filter fun next => next.start < added.stop
  let previous := (timeline.previous? added.start).filter fun previous =>
    previous.ramp.isSome && added.start < previous.stop
  (same.or next).or previous

end Timeline

/-- A ramp's length in seconds and its samples per second. -/
structure RampTiming where
  duration : Float
  rate : Float
deriving Inhabited

/-- One output of a device. -/
structure Channel where
  name : String
  device : String
  kind : ChannelKind
  /-- The value before the first instruction. -/
  default : Float
  timeBase : Float
  timeline : Timeline
deriving Inhabited

namespace Channel

/-- The name of the output in every report. -/
def output (channel : Channel) : String :=
  channel.device ++ "/" ++ channel.name

/-- A channel with an instruction. -/
def isEdited (channel : Channel) : Bool :=
  !channel.timeline.items.isEmpty

/-- The channel without its instructions. -/
def clear (channel : Channel) : Channel :=
  { channel with timeline := .empty }

/-- Accepts the values a channel can hold: finite ones, and on a digital channel `0` and `1`. -/
def checkValue (channel : Channel) (value t : Float) : Except Fault Unit :=
  if !value.isFinite then .error (.timeline channel.output t (.valueNotFinite value))
  else if channel.kind = .digital && value != 0 && value != 1 then
    .error (.digitalValue channel.output t value)
  else .ok ()

/-- A channel without instructions, if it can hold its default value. -/
def create (device name : String) (kind : ChannelKind) (default timeBase : Float) :
    Except Fault Channel := do
  let channel : Channel := ⟨name, device, kind, default, timeBase, .empty⟩
  channel.checkValue default 0
  return channel

/-- The domain on the grid of a ramp that starts at a position. -/
def rampSpan (channel : Channel) (start : Nat) (t : Float) (timing : RampTiming) :
    Except Fault RampSpan := do
  let refuse (cause : TimelineCause) : Except Fault RampSpan :=
    .error (.timeline channel.output t cause)
  if channel.kind = .digital then refuse .digitalRamp
  else if !timing.duration.isFinite || timing.duration ≤ 0 then
    refuse (.durationNotPositive timing.duration)
  else
    let length ← TimeGrid.position timing.duration channel.timeBase channel.output
    if length = 0 then refuse (.durationBelowResolution timing.duration)
    else if TimeGrid.last < start + length then refuse (.rampBeyondGrid timing.duration)
    else
      let period ← TimeGrid.samplePeriod timing.rate channel.timeBase channel.output t
      return ⟨start + length, period⟩

/-- The placement of an instruction at a time, if the channel admits it there.  Without a ramp's
timing the instruction has to be a constant. -/
def place (channel : Channel) (instruction : Instruction) (t : Float)
    (timing : Option RampTiming) : Except Fault Placement := do
  let start ← TimeGrid.position t channel.timeBase channel.output
  let span ← match timing with
    | none =>
        if instruction.isRamp then
          throw (.timeline channel.output t (.rampWithoutDuration instruction))
        channel.checkValue instruction.level t
        pure none
    | some timing => some <$> channel.rampSpan start t timing
  let added ← Placement.of start span instruction
  match channel.timeline.overlapping? added with
  | some present => throw (.timeline channel.output t (.overlap added present))
  | none => return added

/-- The channel with one placement more, unless its start is taken. -/
def insert (channel : Channel) (placement : Placement) : Channel :=
  { channel with timeline := channel.timeline.insert placement }

/-- The channel with the first of some placements, and the placements that are left. -/
def takeFirst (channel : Channel) : List Placement → Channel × List Placement
  | [] => (channel, [])
  | first :: rest => (channel.insert first, rest)

/-- The channel with an instruction more. -/
def record (channel : Channel) (instruction : Instruction) (t : Float)
    (timing : Option RampTiming) : Except Fault Channel :=
  channel.insert <$> channel.place instruction t timing

end Channel

end Metronome
