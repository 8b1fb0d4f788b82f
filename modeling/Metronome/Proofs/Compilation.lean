/-
Module: Metronome.Proofs.Compilation
Purpose: What the compiled samples of a device have to do with the device.
Trusted boundary: none
Main exports:
  Experiment.sampleDevice_eq_ok, Experiment.compile_eq_ok,
  Experiment.compile_device, Experiment.compile_channel, Experiment.compile_names,
  Experiment.compile_length
-/
import Metronome.Card.Basic
import Metronome.Proofs.Lookup
import Metronome.Proofs.Pointwise

/-!
Compilation keeps the names of devices and channels, and gives every channel of a device one sample
for each tick on the device's line, so that the columns of a device have one length.
-/

namespace Metronome

theorem Compiled.device_eq_ok {compiled : Compiled} {name : String} {device : SampledDevice} :
    compiled.device name = .ok device ↔ compiled.devices.get? name = some device := by
  unfold Compiled.device
  cases compiled.devices.get? name <;> simp

theorem SampledDevice.channel_eq_ok {device : SampledDevice} {name : String}
    {values : List Float} :
    device.channel name = .ok values ↔ device.samples.get? name = some values := by
  unfold SampledDevice.channel
  cases device.samples.get? name <;> simp

/-- A card finds the device with its name if it is of its kind. -/
theorem Card.sampled_eq_ok {compiled : Compiled} {name : String} {kind : DeviceKind}
    {device : SampledDevice} :
    Card.sampled compiled name kind = .ok device ↔
      compiled.device name = .ok device ∧ device.kind = kind := by
  rw [sampled, Checks.bind_eq_ok]
  constructor
  · rintro ⟨found, lookup, same⟩
    split at same
    · rename_i kinds
      cases same
      exact ⟨lookup, kinds⟩
    · cases same
  · rintro ⟨lookup, kinds⟩
    exact ⟨device, lookup, by rw [if_pos kinds]; rfl⟩

namespace Experiment

variable {experiment : Experiment} {stop : Option Float} {compiled : Compiled} {name : String}
  {device : SampledDevice}

/-- The compiled samples of a device are those of its channels, under their names. -/
theorem sampleDevice_eq_ok {program : Program} {found : Device} :
    sampleDevice program found = .ok device ↔
      ∃ samples, (found.channels.traverse fun _ channel =>
          (channel.toOutput found.line).samples program) = .ok samples ∧
        device = ⟨found.name, found.kind, found.line, samples⟩ := by
  rw [sampleDevice, Checks.bind_eq_ok]
  constructor
  · rintro ⟨samples, traversed, made⟩
    cases made
    exact ⟨samples, traversed, rfl⟩
  · rintro ⟨samples, traversed, rfl⟩
    exact ⟨samples, traversed, rfl⟩

/-- An experiment compiles if it has a stop position, its clock has a program up to there and every
device can be sampled on it. -/
theorem compile_eq_ok :
    experiment.compile stop = .ok compiled ↔
      ∃ position program devices, experiment.stopPosition stop = .ok position ∧
        experiment.clock.program experiment.outputs position experiment.settings = .ok program ∧
        (experiment.devices.traverse fun _ device => sampleDevice program device) = .ok devices ∧
        compiled = ⟨experiment.clock.name, experiment.clock.minPeriod, program, devices⟩ := by
  simp only [compile, Checks.bind_eq_ok]
  constructor
  · rintro ⟨position, ends, program, runs, devices, traversed, made⟩
    cases made
    exact ⟨position, program, devices, ends, runs, traversed, rfl⟩
  · rintro ⟨position, program, devices, ends, runs, traversed, rfl⟩
    exact ⟨position, ends, program, runs, devices, traversed, rfl⟩

/-- Every channel has its samples on the compiled program under the names of its device and of its
own. -/
theorem compile_channel (made : experiment.compile stop = .ok compiled) {found : Device}
    (lookup : experiment.device name = .ok found) {channelName : String} {channel : Channel}
    (held : found.channel channelName = .ok channel) :
    ∃ device values, compiled.device name = .ok device ∧ device.channel channelName = .ok values ∧
      (channel.toOutput found.line).samples compiled.program = .ok values := by
  obtain ⟨position, program, devices, -, -, traversed, rfl⟩ := compile_eq_ok.1 made
  obtain ⟨device, sampledIn, sampled⟩ := Registry.exists_mem_traverse traversed
    (Registry.get?_eq_some_iff.1 (device_eq_ok.1 lookup))
  obtain ⟨samples, eachChannel, rfl⟩ := sampleDevice_eq_ok.1 sampled
  obtain ⟨values, valuesIn, made⟩ := Registry.exists_mem_traverse eachChannel
    (Registry.get?_eq_some_iff.1 (Device.channel_eq_ok.1 held))
  exact ⟨_, values, Compiled.device_eq_ok.2 (Registry.get?_eq_some_iff.2 sampledIn),
    SampledDevice.channel_eq_ok.2 (Registry.get?_eq_some_iff.2 valuesIn), made⟩

/-- Every compiled device is the device with its name, sampled on the compiled program. -/
theorem compile_device (made : experiment.compile stop = .ok compiled)
    (lookup : compiled.device name = .ok device) :
    ∃ found, experiment.device name = .ok found ∧
      sampleDevice compiled.program found = .ok device := by
  obtain ⟨position, program, devices, -, -, traversed, rfl⟩ := compile_eq_ok.1 made
  obtain ⟨found, registered, sampled⟩ := Registry.mem_traverse traversed
    (Registry.get?_eq_some_iff.1 (Compiled.device_eq_ok.1 lookup))
  exact ⟨found, device_eq_ok.2 (Registry.get?_eq_some_iff.2 registered), sampled⟩

/-- A compiled device is of the kind of the device with its name, and has its channels. -/
theorem compile_names (made : experiment.compile stop = .ok compiled)
    (lookup : compiled.device name = .ok device) :
    ∃ found, experiment.device name = .ok found ∧ device.kind = found.kind ∧
      device.samples.names = found.channels.names := by
  obtain ⟨found, held, sampled⟩ := compile_device made lookup
  obtain ⟨samples, traversed, rfl⟩ := sampleDevice_eq_ok.1 sampled
  exact ⟨found, held, rfl, Registry.names_traverse traversed⟩

/-- All channels of a compiled device have as many samples as its line has ticks. -/
theorem compile_length (made : experiment.compile stop = .ok compiled)
    (lookup : compiled.device name = .ok device) {entry : String × List Float}
    (member : entry ∈ device.samples.entries) :
    entry.2.length = (compiled.program.lineTicks device.line).length := by
  obtain ⟨found, -, sampled⟩ := compile_device made lookup
  obtain ⟨samples, traversed, rfl⟩ := sampleDevice_eq_ok.1 sampled
  obtain ⟨channel, -, values⟩ := Registry.mem_traverse traversed member
  exact Output.length_samples values

end Experiment
end Metronome
