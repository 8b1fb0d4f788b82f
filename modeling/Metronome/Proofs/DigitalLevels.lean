/-
Module: Metronome.Proofs.DigitalLevels
Purpose: What was recorded keeps digital outputs at their levels, so that sampling never has to
  refuse one.
Trusted boundary: none
Main exports:
  Levels.Represent, Levels.exists_of_levels, Channel.HasRamp,
  Channel.canProduce_of_constant, Channel.samples_failsWith, Experiment.MayFail,
  Experiment.session_digital
-/
import Metronome.Packing
import Metronome.Proofs.Failures
import Metronome.Proofs.OutputNames
import Metronome.Proofs.Soundness

/-!
A value is checked when it is recorded, and every sample is checked again.  On a sound channel a
sample is the default value, the level of a constant, or a value of a ramp, and the first two have
passed the first check, which asks for the same.  So the second check can fail for ramps alone, and
digital channels have none.
-/

namespace Metronome

/-! ### Levels -/

namespace Number

variable {x : Float}

/-- A number that compares equal to a level is read as that level, by the lines of words and by
gates. -/
theorem level_of_beq (level : (x == 0) = true ∨ (x == 1) = true) :
    (x == if x != 0 then 1 else 0) = true ∧ toSigned x = if x != 0 then 1 else 0 := by
  rcases level with zero | one
  · rcases eq_zero_of_beq zero with rfl | rfl <;> decide +kernel
  · rw [eq_one_of_beq one]
    decide +kernel

end Number

/-- Samples that stand for levels exactly: each compares equal to the number of its level, and as
the line of a word and as the gate of a synthesizer they are encoded as just these levels. -/
structure Levels.Represent (values : List Float) (highs : List Bool) : Prop where
  equal : List.Forall₂ (fun value high => (value == if high then 1 else 0) = true) values highs
  line : Packing.levels values = highs
  gate : values.map Number.toSigned = highs.map fun high => if high then 1 else 0

/-- Samples each of which compares equal to a level stand for levels. -/
theorem Levels.exists_of_levels {values : List Float}
    (each : ∀ value ∈ values, (value == 0) = true ∨ (value == 1) = true) :
    ∃ highs, Levels.Represent values highs := by
  refine ⟨Packing.levels values, ?_, rfl, ?_⟩
  · rw [Packing.levels, List.forall₂_map_right_iff, List.forall₂_same]
    exact fun value member => (Number.level_of_beq (each value member)).1
  · rw [Packing.levels, List.map_map]
    exact List.map_congr_left fun value member => (Number.level_of_beq (each value member)).2

/-! ### One channel -/

namespace Channel

variable {channel : Channel} {line : ClockLine} {program : Program}

/-- A channel with a ramp on its timeline. -/
def HasRamp (channel : Channel) : Prop :=
  ∃ placement ∈ channel.timeline.items, placement.ramp ≠ none

/-- Where no ramp is current, a sound channel is asked for a value that it was checked for. -/
theorem canProduce_of_constant (sound : channel.Sound) {timeBase : Float} {position : Nat}
    {current : Option Placement}
    (placed : ∀ placement, current = some placement → placement ∈ channel.timeline.items)
    (constant : ∀ placement, current = some placement → placement.ramp = none) :
    (channel.toOutput line).CanProduce
      ((channel.toOutput line).value timeBase position current) := by
  cases current with
  | none => exact ⟨sound.default, fun digital => (sound.digital digital).1⟩
  | some placement =>
      have member := placed placement rfl
      have noRamp := constant placement rfl
      rw [Output.value, Placement.value_of_constant noRamp]
      exact ⟨(sound.constants placement member noRamp).2,
        fun digital => ((sound.digital digital).2 placement member).2⟩

/-- A sound channel can be sampled, unless a ramp on it has a value that is not finite. -/
theorem samples_failsWith (sound : channel.Sound) :
    Checks.FailsWith (fun fault => channel.HasRamp ∧
      ∃ time value, fault = .rampValue channel.output time value)
      ((channel.toOutput line).samples program) := by
  intro fault failed
  obtain ⟨position, current, placed, impossible, rfl⟩ := Output.refuses_of_samples failed
  -- A value that was refused is that of a ramp: all others were checked when they were recorded.
  have ramps : ∃ placement, current = some placement ∧ placement.ramp ≠ none := by
    by_contra none
    push Not at none
    exact impossible (canProduce_of_constant sound placed none)
  obtain ⟨placement, isCurrent, ramp⟩ := ramps
  have member := placed placement isCurrent
  have analog : channel.kind ≠ .digital := fun digital =>
    ramp ((sound.digital digital).2 placement member).1
  have notFinite : ((channel.toOutput line).value program.timeBase position current).isFinite ≠
      true := fun finite => impossible ⟨finite, fun digital => absurd digital analog⟩
  rw [if_neg notFinite]
  exact ⟨⟨placement, member, ramp⟩, _, _, rfl⟩

/-- The samples of a digital channel are levels. -/
theorem samples_levels (digital : channel.kind = .digital) {values : List Float}
    (sampled : (channel.toOutput line).samples program = .ok values) :
    ∃ highs, Levels.Represent values highs := by
  have possible := Output.canProduce_of_samples sampled
  exact Levels.exists_of_levels fun value member => (possible value member).2 digital

end Channel

/-! ### Whole experiments -/

namespace Experiment

variable {experiment : Experiment} {stop : Option Float}

/-- The faults that a compilation may end in, as far as samples are concerned: no sample is refused
for not being a level, and one for not being finite only on a channel with a ramp. -/
def MayFail (experiment : Experiment) : Fault → Prop
  | .digitalValue .. => False
  | .rampValue output _ _ => ∃ channel ∈ experiment.channels,
      channel.output = output ∧ channel.HasRamp
  | _ => True

theorem compile_mayFail (sound : experiment.Sound) :
    Checks.FailsWith experiment.MayFail (experiment.compile stop) := by
  have timelines : ∀ output time cause, experiment.MayFail (.timeline output time cause) :=
    fun _ _ _ => trivial
  have conflicts : ∀ first second time cause,
      experiment.MayFail (.conflict first second time cause) := fun _ _ _ _ => trivial
  refine compile_failsWith (stopPosition_failsWith timelines) (fun position _ => ?_) ?_
  · exact Pseudoclock.program_failsWith (fun _ => trivial)
      (fun _ _ _ _ => Output.checkPlacement_failsWith timelines)
      (fun _ _ _ => Schedule.checkWait_failsWith timelines conflicts) conflicts
      fun _ _ => trivial
  · intro program device found name channel lookup held fault failed
    have member := mem_channels_iff.2 ⟨device, name, channel_eq_ok.2 ⟨found, lookup, held⟩⟩
    obtain ⟨ramp, time, value, rfl⟩ :=
      Channel.samples_failsWith (sound.channels channel member) fault failed
    exact ⟨channel, member, rfl, ramp⟩

/-- The compiled samples of a digital channel are levels. -/
theorem compile_levels {settings : Settings} (registered : experiment.Registered settings)
    {compiled : Compiled} (made : experiment.compile stop = .ok compiled) {device name : String}
    {sampled : SampledDevice} {values : List Float} (lookup : compiled.device device = .ok sampled)
    (held : sampled.channel name = .ok values)
    (digital : sampled.kind.channelKind name = .digital) :
    ∃ highs, Levels.Represent values highs := by
  obtain ⟨found, foundIn, sampling⟩ := compile_device made lookup
  obtain ⟨samples, traversed, rfl⟩ := sampleDevice_eq_ok.1 sampling
  obtain ⟨channel, registeredIn, columns⟩ := Registry.mem_traverse traversed
    (Registry.get?_eq_some_iff.1 (SampledDevice.channel_eq_ok.1 held))
  have channelIn := Device.channel_eq_ok.2 (Registry.get?_eq_some_iff.2 registeredIn)
  have kind := ((registered.devices device found foundIn).channels channelIn).kind
  exact Channel.samples_levels (kind.trans digital) columns

/-- Digital outputs stay digital.  After every session, of any commands and with any failures in
between, and for every stop time, no sample is refused for not being a level, and none of a channel
without ramps for not being finite.  If the experiment compiles, all samples of every digital line
and of every gate of a synthesizer stand for levels exactly. -/
theorem session_digital {clockName : String} {minPeriod : Float} {settings : Settings}
    {new : Experiment} (made : create clockName minPeriod settings = .ok new)
    (commands : List Command) (stop : Option Float) :
    let experiment := new.session commands
    (∀ output time value, experiment.compile stop ≠ .error (.digitalValue output time value)) ∧
    (∀ channel ∈ experiment.channels, ¬ channel.HasRamp → ∀ time value,
      experiment.compile stop ≠ .error (.rampValue channel.output time value)) ∧
    ∀ compiled, experiment.compile stop = .ok compiled → ∀ device name sampled values,
      compiled.device device = .ok sampled → sampled.channel name = .ok values →
      sampled.kind.channelKind name = .digital → ∃ highs, Levels.Represent values highs := by
  intro experiment
  obtain ⟨named, sound⟩ := session_rules made commands
  have registered := session_registered made commands
  refine ⟨fun output time value failed => compile_mayFail sound _ failed,
    fun channel member noRamp time value failed => ?_,
    fun compiled compiles device name sampled values lookup held digital =>
      compile_levels registered compiles lookup held digital⟩
  -- The fault names an output, which has to be of this channel and no other.
  obtain ⟨other, otherIn, same, ramp⟩ := compile_mayFail sound _ failed
  obtain ⟨device, name, lookup⟩ := mem_channels_iff.1 member
  obtain ⟨otherDevice, otherName, otherLookup⟩ := mem_channels_iff.1 otherIn
  obtain ⟨rfl, rfl⟩ := registered.output_injective named otherLookup lookup same
  rw [otherLookup] at lookup
  exact noRamp (Except.ok.inj lookup ▸ ramp)

/-- A session with a ramp on one card, and a pulse on the gate of a synthesizer after it. -/
def gatedSession : List Command :=
  [.addDevice "synth" .synthesizer .fast, .addComposite "synth" 0 true,
    .addDevice "volts" .analogCard .fast, .addAnalogChannel "volts" 0 0,
    .linear "volts" "ao0" 0 ⟨1e-6, 1e6⟩ 0 1, .pulse "synth" "dds0/gate" true 1e-6 1e-6]

/-- The samples of the gate stand for a pulse. -/
theorem gatedSession_digital : ∃ new compiled sampled values,
    create "clock" 1e-7 {} = .ok new ∧
      (new.session gatedSession).compile none = .ok compiled ∧
      compiled.device "synth" = .ok sampled ∧ sampled.channel "dds0/gate" = .ok values ∧
      sampled.kind.channelKind "dds0/gate" = .digital ∧
      Levels.Represent values [false, true, false] := by
  have run : (do
      let new ← create "clock" 1e-7 {}
      let compiled ← (new.session gatedSession).compile none
      let sampled ← compiled.device "synth"
      let values ← sampled.channel "dds0/gate"
      return (sampled.kind.channelKind "dds0/gate", Packing.levels values) :
        Except Fault (ChannelKind × List Bool)).toOption =
      some (.digital, [false, true, false]) := by decide +kernel
  obtain ⟨new, made, run⟩ := Checks.bind_eq_ok.1 (Checks.toOption_eq_some_iff.1 run)
  obtain ⟨compiled, compiles, run⟩ := Checks.bind_eq_ok.1 run
  obtain ⟨sampled, lookup, run⟩ := Checks.bind_eq_ok.1 run
  obtain ⟨values, held, run⟩ := Checks.bind_eq_ok.1 run
  obtain ⟨digital, pulse⟩ := Prod.mk.inj (Except.ok.inj run)
  obtain ⟨highs, represent⟩ := (session_digital made gatedSession none).2.2 compiled compiles
    "synth" "dds0/gate" sampled values lookup held digital
  rw [represent.line] at pulse
  exact ⟨new, compiled, sampled, values, made, compiles, lookup, held, digital, pulse ▸ represent⟩

end Experiment

end Metronome
