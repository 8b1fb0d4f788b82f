/-
Module: Metronome.Experiment.Compiled
Purpose: The clock program of an experiment with the samples of every channel.
Trusted boundary: none
Main exports:
  SampledDevice, Compiled, Experiment.compile
-/
import Metronome.Experiment
import Metronome.Schedule.Program

/-!
Compilation reads an experiment and changes nothing.  Without a stop time the program ends one
minimum period after the last instruction or wait, so that every final value is output.
-/

namespace Metronome

/-- The samples of a device's channels, one for each tick on its line. -/
structure SampledDevice where
  name : String
  kind : DeviceKind
  line : ClockLine
  samples : Registry (List Float)
deriving Inhabited

/-- A compiled experiment. -/
structure Compiled where
  clockName : String
  clockMinPeriod : Float
  program : Program
  devices : Registry SampledDevice
deriving Inhabited

namespace SampledDevice

/-- The samples of a channel. -/
def channel (device : SampledDevice) (name : String) : Except Fault (List Float) :=
  match device.samples.get? name with
  | some samples => .ok samples
  | none => .error (.unknownChannel device.name name device.samples.names)

/-- The ticks the device sees; none without channels. -/
def tickCount (device : SampledDevice) : Nat :=
  (device.samples.values.head?.map List.length).getD 0

end SampledDevice

namespace Compiled

/-- The samples of the device with a name. -/
def device (compiled : Compiled) (name : String) : Except Fault SampledDevice :=
  match compiled.devices.get? name with
  | some device => .ok device
  | none => .error (.unknownDevice name compiled.devices.names)

/-- The time of a tick on a line, counted from zero; NaN past the last tick. -/
def tickTime (compiled : Compiled) (line : ClockLine) (index : Nat) : Float :=
  (compiled.program.tickTime? line index).getD (0 / 0)

end Compiled

namespace Experiment

/-- The channels as the clock sees them, in registration order. -/
def outputs (experiment : Experiment) : List Output :=
  experiment.devices.values.flatMap fun device =>
    device.channels.values.map fun channel => channel.toOutput device.line

/-- The position at which the program ends.  An explicit stop time must not precede the last
instruction or wait. -/
def stopPosition (experiment : Experiment) (stop : Option Float) : Except Fault Nat := do
  let clock := experiment.clock
  let timeBase := experiment.settings.timeBase
  match stop with
  | none => return experiment.lastStop + clock.minPositions
  | some t =>
      let position ← TimeGrid.position t timeBase clock.name
      if position < experiment.lastStop then
        throw (.timeline clock.name t
          (.stopBeforeEnd (TimeGrid.seconds experiment.lastStop timeBase)))
      return position

/-- The samples of one device on the ticks of a program. -/
def sampleDevice (program : Program) (device : Device) : Except Fault SampledDevice := do
  let samples ← device.channels.traverse fun _ channel =>
    (channel.toOutput device.line).samples program
  return ⟨device.name, device.kind, device.line, samples⟩

/-- The program and the samples of an experiment. -/
def compile (experiment : Experiment) (stop : Option Float) : Except Fault Compiled := do
  let position ← experiment.stopPosition stop
  let program ← experiment.clock.program experiment.outputs position experiment.settings
  let devices ← experiment.devices.traverse fun _ device => sampleDevice program device
  return ⟨experiment.clock.name, experiment.clock.minPeriod, program, devices⟩

end Experiment

end Metronome
