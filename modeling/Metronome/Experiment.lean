/-
Module: Metronome.Experiment
Purpose: A pseudoclock with its devices, and every call that records into them.
Trusted boundary: none
Main exports:
  Experiment, Experiment.create, Command, Recorder, Experiment.perform
-/
import Metronome.Device
import Metronome.Pseudoclock
import Metronome.Settings

/-!
An experiment is recorded by commands.  A command that fails reports a fault and keeps what it
changed before: a pulse whose second edge is refused keeps its first edge, and a composite output
of which a part is refused keeps the parts before it.  All other commands either succeed or change
nothing.
-/

namespace Metronome

/-- A setup under one pseudoclock. -/
structure Experiment where
  clock : Pseudoclock
  devices : Registry Device
  settings : Settings
deriving Inhabited

/-- Steps on an experiment that may fail, with the experiment kept as it then is. -/
abbrev Recorder := ExceptT Fault (StateM Experiment)

/-- The commands that record into an experiment.  Times and durations are in seconds, rates in
samples per second. -/
inductive Command where
  | addDevice (name : String) (kind : DeviceKind) (line : ClockLine)
  | addAnalogChannel (device : String) (id : Nat) (default : Float)
  | addDigitalChannel (device : String) (port line : Nat) (default : Float)
  | addComposite (device : String) (id : Nat) (gate : Bool)
  | addChannel (device name : String) (default : Float)
  | wait (label : String) (t : Float) (timeout : Option Float)
  | constant (device channel : String) (t value : Float)
  | level (device channel : String) (high : Bool) (t : Float)
  | pulse (device channel : String) (high : Bool) (t duration : Float)
  | linear (device channel : String) (t : Float) (timing : RampTiming) (start finish : Float)
  | exponential (device channel : String) (t : Float) (timing : RampTiming) (start finish : Float)
      (offset : Option Float)
  | sine (device channel : String) (t : Float) (timing : RampTiming) (freq : Float)
      (amplitude phase offset : Option Float)
  | setComposite (device : String) (id : Nat) (t freq amp phase : Float)
  | reset (t : Option Float)
  | instruction (device channel : String) (instruction : Instruction) (t : Float)
      (timing : Option RampTiming)
  | clear
deriving Inhabited

namespace Experiment

/-- An experiment without devices.  The settings are checked before the clock. -/
def create (clockName : String) (minPeriod : Float) (settings : Settings) :
    Except Fault Experiment := do
  settings.check
  let clock ← Pseudoclock.create clockName minPeriod settings.timeBase
  return ⟨clock, .empty, settings⟩

/-- The device with a name. -/
def device (experiment : Experiment) (name : String) : Except Fault Device :=
  match experiment.devices.get? name with
  | some device => .ok device
  | none => .error (.unknownDevice name experiment.devices.names)

/-- The channel of a device. -/
def channel (experiment : Experiment) (device channel : String) : Except Fault Channel := do
  (← experiment.device device).channel channel

/-- The channel of a device, which has to be of a kind. -/
def typedChannel (experiment : Experiment) (device channel : String) (kind : ChannelKind) :
    Except Fault Channel := do
  let found ← experiment.channel device channel
  if found.kind = kind then return found else throw (.wrongChannel found.output kind)

/-- The experiment with one of its devices changed. -/
def setDevice (experiment : Experiment) (device : Device) : Experiment :=
  { experiment with devices := experiment.devices.insert device.name device }

/-- The experiment with one channel of one device changed. -/
def setChannel (experiment : Experiment) (device : String) (channel : Channel) :
    Except Fault Experiment := do
  let found ← experiment.device device
  return experiment.setDevice (found.setChannel channel.name channel)

/-- The experiment with every channel changed. -/
def mapChannels (change : Channel → Channel) (experiment : Experiment) : Experiment :=
  { experiment with devices := experiment.devices.map fun _ device => device.mapChannels change }

/-- All channels, in the order of their devices and of their registration. -/
def channels (experiment : Experiment) : List Channel :=
  experiment.devices.values.flatMap fun device => device.channels.values

/-- The last position that an instruction or a wait occupies. -/
def lastStop (experiment : Experiment) : Nat :=
  experiment.devices.values.foldl (fun last device => max last device.lastStop)
    experiment.clock.lastWait

/-- An experiment with an instruction or a wait. -/
def isEdited (experiment : Experiment) : Bool :=
  experiment.devices.values.any Device.isEdited || !experiment.clock.waits.items.isEmpty

/-- The experiment without instructions and waits; devices and channels stay. -/
def clear (experiment : Experiment) : Experiment :=
  { experiment.mapChannels Channel.clear with clock := experiment.clock.clear }

/-- The experiment with a device more.  Its name must be neither a device's nor the clock's. -/
def addDevice (experiment : Experiment) (name : String) (kind : DeviceKind) (line : ClockLine) :
    Except Fault Experiment :=
  if experiment.devices.contains name || experiment.clock.name = name then
    .error (.nameTaken name)
  else .ok (experiment.setDevice (.create name kind line experiment.settings.timeBase))

/-- The experiment with a channel more on a device. -/
def addChannel (experiment : Experiment) (device name : String) (default : Float) :
    Except Fault Experiment := do
  return experiment.setDevice (← (← experiment.device device).addChannel name default)

/-- The experiment with a channel more on a device of a kind. -/
def addTypedChannel (experiment : Experiment) (device : String) (kind : DeviceKind)
    (name : String) (default : Float) : Except Fault Experiment := do
  let found ← experiment.device device
  if found.kind = kind then return experiment.setDevice (← found.addChannel name default)
  else throw (.wrongDevice device kind)

/-- The experiment with a wait more. -/
def addWait (experiment : Experiment) (label : String) (t : Float) (timeout : Option Float) :
    Except Fault Experiment := do
  return { experiment with clock := ← experiment.clock.addWait label t timeout }

/-- The experiment with an instruction more on a channel of any kind. -/
def record (experiment : Experiment) (device channel : String) (instruction : Instruction)
    (t : Float) (timing : Option RampTiming) : Except Fault Experiment := do
  let found ← experiment.channel device channel
  experiment.setChannel device (← found.record instruction t timing)

/-- The experiment with an instruction more on a channel of a kind. -/
def recordTyped (experiment : Experiment) (device channel : String) (kind : ChannelKind)
    (instruction : Instruction) (t : Float) (timing : Option RampTiming) :
    Except Fault Experiment := do
  let found ← experiment.typedChannel device channel kind
  experiment.setChannel device (← found.record instruction t timing)

/-- The experiment with a level set on a digital channel. -/
def setLevel (experiment : Experiment) (device channel : String) (high : Bool) (t : Float) :
    Except Fault Experiment :=
  experiment.recordTyped device channel .digital (.constant (if high then 1 else 0)) t none

/-- The time of a reset: the given one, or one minimum period after the last instruction or
wait. -/
def resetTime (experiment : Experiment) (t : Option Float) : Float :=
  match t with
  | some t => t
  | none => TimeGrid.seconds (experiment.lastStop + experiment.clock.minPositions)
      experiment.settings.timeBase

/-- The experiment with one of some placements on each channel, in order. -/
def deal (experiment : Experiment) (placements : List Placement) : Experiment :=
  { experiment with devices := (experiment.devices.thread Device.deal placements).1 }

/-- The experiment with every channel set to its default value at a time, if all of them admit
that.  All placements are made before the first is put on its channel. -/
def reset (experiment : Experiment) (t : Option Float) : Except Fault Experiment := do
  let t := experiment.resetTime t
  let placements ← experiment.channels.mapM fun channel =>
    channel.place (.constant channel.default) t none
  return experiment.deal placements

end Experiment

namespace Recorder

/-- A change that succeeds or changes nothing. -/
def atomic (change : Experiment → Except Fault Experiment) : Recorder Unit := do
  match change (← get) with
  | .ok experiment => set experiment
  | .error fault => throw fault

/-- The values of the analog parts of a composite output. -/
def compositeValues (freq amp phase : Float) : List (Part × Float) :=
  [(.freq, freq), (.amp, amp), (.phase, phase)]

/-- Registers the parts of a composite output one after the other. -/
def addComposite (device : String) (id : Nat) (gate : Bool) : Recorder Unit :=
  ([Part.freq, .amp, .phase] ++ if gate then [Part.gate] else []).forM fun part =>
    atomic fun experiment =>
      experiment.addTypedChannel device .synthesizer (ChannelName.part id part) 0

/-- Sets a digital channel to a level and, after a duration, to the opposite one. -/
def pulse (device channel : String) (high : Bool) (t duration : Float) : Recorder Unit := do
  atomic fun experiment => experiment.setLevel device channel high t
  atomic fun experiment => experiment.setLevel device channel (!high) (t + duration)

/-- Sets the analog parts of a composite output, after all of them have been tried. -/
def setComposite (device : String) (id : Nat) (t freq amp phase : Float) : Recorder Unit := do
  let values := compositeValues freq amp phase
  let experiment ← get
  values.forM fun (part, value) => do
    let channel ← experiment.typedChannel device (ChannelName.part id part) .analog
    let _ ← channel.place (.constant value) t none
  values.forM fun (part, value) => atomic fun experiment =>
    experiment.recordTyped device (ChannelName.part id part) .analog (.constant value) t none

end Recorder

namespace Experiment

/-- The effect of a command. -/
def perform : Command → Recorder Unit
  | .addDevice name kind line => .atomic fun e => e.addDevice name kind line
  | .addAnalogChannel device id default =>
      .atomic fun e => e.addTypedChannel device .analogCard (ChannelName.analog id) default
  | .addDigitalChannel device port line default =>
      .atomic fun e => e.addTypedChannel device .digitalCard (ChannelName.line port line) default
  | .addComposite device id gate => .addComposite device id gate
  | .addChannel device name default => .atomic fun e => e.addChannel device name default
  | .wait label t timeout => .atomic fun e => e.addWait label t timeout
  | .constant device channel t value =>
      .atomic fun e => e.recordTyped device channel .analog (.constant value) t none
  | .level device channel high t => .atomic fun e => e.setLevel device channel high t
  | .pulse device channel high t duration => .pulse device channel high t duration
  | .linear device channel t timing start finish =>
      .atomic fun e => e.recordTyped device channel .analog (.linear start finish) t (some timing)
  | .exponential device channel t timing start finish offset =>
      .atomic fun e =>
        e.recordTyped device channel .analog (.exponential start finish offset) t (some timing)
  | .sine device channel t timing freq amplitude phase offset =>
      .atomic fun e => e.recordTyped device channel .analog
        (.sine freq amplitude phase offset) t (some timing)
  | .setComposite device id t freq amp phase => .setComposite device id t freq amp phase
  | .reset t => .atomic fun e => e.reset t
  | .instruction device channel instruction t timing =>
      .atomic fun e => e.record device channel instruction t timing
  | .clear => .atomic fun e => .ok e.clear

/-- An experiment after a command, and the fault if the command failed. -/
def after (experiment : Experiment) (command : Command) : Experiment × Option Fault :=
  match (perform command).run experiment with
  | (.ok (), experiment) => (experiment, none)
  | (.error fault, experiment) => (experiment, some fault)

end Experiment

end Metronome
