/-
Module: Metronome.Proofs.Numbering
Purpose: Channels that are registered by their numbers have names from which the numbers are read.
Trusted boundary: none
Main exports:
  DeviceKind.Numbered, Command.ByNumber, Experiment.perform_numbered, Experiment.session_numbered,
  Experiment.compile_numbered
-/
import Metronome.Proofs.Compilation
import Metronome.Proofs.Naming
import Metronome.Proofs.Session

/-!
A channel can be registered by its numbers or, directly, by its name.  Numbers are 64-bit words and
are written without zeros in front, so that a channel's name is known by its numbers if no channel
of its device was registered directly.
-/

namespace Metronome

/-- The names that a kind of device gives to its channels by their numbers. -/
def DeviceKind.Numbered (kind : DeviceKind) (name : String) : Prop :=
  match kind with
  | .analogCard => ∃ id, name = ChannelName.analog id
  | .digitalCard => ∃ port line, port < UInt64.size ∧ line < UInt64.size ∧
      name = ChannelName.line port line
  | .synthesizer => ∃ id part, id < UInt64.size ∧ name = ChannelName.part id part

/-- A command that does not register a channel of the device directly, and whose numbers are
words. -/
def Command.ByNumber (device : String) : Command → Prop
  | .addDigitalChannel _ port line _ => port < UInt64.size ∧ line < UInt64.size
  | .addComposite _ id _ => id < UInt64.size
  | .addChannel other _ _ => other ≠ device
  | _ => True

instance (device : String) : DecidablePred (Command.ByNumber device) := fun command => by
  unfold Command.ByNumber
  split <;> infer_instance

namespace Experiment

variable {before after experiment : Experiment} {device : String}

/-- All channels of a device have names by their numbers. -/
def Numbered (device : String) (experiment : Experiment) : Prop :=
  ∀ found, experiment.device device = .ok found → ∀ name ∈ found.channels.names,
    found.kind.Numbered name

theorem numbered_clear : experiment.clear.Numbered device ↔ experiment.Numbered device := by
  have cleared := @forall_device_clear experiment
    (fun name found => name = device → ∀ channel ∈ found.channels.names,
      found.kind.Numbered channel) fun name found => by
    rw [names_clear]
    rfl
  constructor
  · intro numbered found lookup
    refine cleared.1 (fun name found lookup same => ?_) device found lookup rfl
    exact numbered found (same ▸ lookup)
  · intro numbered found lookup
    refine cleared.2 (fun name found lookup same => ?_) device found lookup rfl
    exact numbered found (same ▸ lookup)

/-- A channel may be registered by its numbers, and on other devices in any way. -/
theorem Numbered.setChannel (numbered : before.Numbered device) {other name : String}
    {found : Device} {channel : Channel} (named : before.Named)
    (lookup : before.device other = .ok found)
    (byNumber : other = device → found.kind.Numbered name) :
    (before.setDevice (found.setChannel name channel)).Numbered device := by
  intro changed changedLookup channelName member
  rcases device_setDevice.1 changedLookup with ⟨same, rfl⟩ | ⟨-, old⟩
  · have ownName : found.name = other := named.devices lookup
    have sameDevice : other = device := ownName.symm.trans same.symm
    rcases mem_names_setChannel.1 member with rfl | registered
    · exact byNumber sameDevice
    · exact numbered found (sameDevice ▸ lookup) channelName registered
  · exact numbered changed old channelName member

theorem keeps_addTypedChannel {other name : String} {kind : DeviceKind} {default : Float}
    (byNumber : kind.Numbered name) :
    Steps.Keeps (fun experiment => experiment.Named ∧ experiment.Numbered device)
      (Recorder.atomic fun experiment => experiment.addTypedChannel other kind name default) := by
  refine Recorder.keeps_atomic fun before after start made => ?_
  have registration := registration_of_addTypedChannel made
  obtain ⟨found, channel, lookup, rfl, -, -, -, rfl⟩ := addTypedChannel_eq_ok.1 made
  exact ⟨registration.named start.1, start.2.setChannel start.1 lookup fun _ => byNumber⟩

/-- Commands by numbers keep the names of a device those of numbers. -/
theorem perform_numbered {command : Command} (byNumber : command.ByNumber device) :
    Steps.Keeps (fun experiment => experiment.Named ∧ experiment.Numbered device)
      (perform command) := by
  cases registers : command.isRegistration with
  | false =>
      refine perform_keeps And.left command (fun yes => ?_) fun start recording =>
        ⟨recording.keeps (fun _ => named_clear) start.1,
          recording.keeps (fun _ => numbered_clear) start.2⟩
      rw [registers] at yes
      cases yes
  | true =>
      cases command with
      | addDevice name kind line =>
          refine Recorder.keeps_atomic fun before after start made => ?_
          have registration := registration_of_addDevice made
          obtain ⟨-, rfl⟩ := addDevice_eq_ok.1 made
          refine ⟨registration.named start.1, fun found lookup channel member => ?_⟩
          rcases device_setDevice.1 lookup with ⟨-, rfl⟩ | ⟨-, old⟩
          · cases member
          · exact start.2 found old channel member
      | addAnalogChannel other id default => exact keeps_addTypedChannel ⟨id, rfl⟩
      | addDigitalChannel other port line default =>
          exact keeps_addTypedChannel ⟨port, line, byNumber.1, byNumber.2, rfl⟩
      | addComposite other id gate =>
          exact Steps.keeps_forM _ fun part _ => keeps_addTypedChannel ⟨id, part, byNumber, rfl⟩
      | addChannel other name default =>
          refine Recorder.keeps_atomic fun before after start made => ?_
          have registration := registration_of_addChannel made
          obtain ⟨found, channel, lookup, -, -, -, rfl⟩ := addChannel_eq_ok.1 made
          exact ⟨registration.named start.1, start.2.setChannel start.1 lookup
            fun same => absurd same byNumber⟩
      | _ => cases registers

/-- After a session by numbers the channels of a device have names by their numbers. -/
theorem session_numbered {clockName : String} {minPeriod : Float} {settings : Settings}
    {new : Experiment} (made : create clockName minPeriod settings = .ok new)
    {commands : List Command} (byNumber : ∀ command ∈ commands, command.ByNumber device) :
    (new.session commands).Numbered device :=
  (session_keeps (fun command member => perform_numbered (byNumber command member))
    ⟨named_create made, fun _ lookup => absurd lookup (device_create made)⟩).2

/-- The compiled samples of the device are under those names. -/
theorem compile_numbered {stop : Option Float} {compiled : Compiled} {sampled : SampledDevice}
    (numbered : experiment.Numbered device) (made : experiment.compile stop = .ok compiled)
    (lookup : compiled.device device = .ok sampled) {name : String}
    (member : name ∈ sampled.samples.names) : sampled.kind.Numbered name := by
  obtain ⟨found, held, kind, names⟩ := compile_names made lookup
  rw [names] at member
  rw [kind]
  exact numbered found held name member

end Experiment
end Metronome
