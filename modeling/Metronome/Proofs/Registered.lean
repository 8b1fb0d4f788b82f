/-
Module: Metronome.Proofs.Registered
Purpose: Every channel carries what its device gave it at registration: a name that the device
  admits, its kind, and the time base of the settings.
Trusted boundary: none
Main exports:
  Channel.RegisteredOn, Device.Registered, Experiment.Registered, Experiment.perform_registered,
  Experiment.session_registered
-/
import Metronome.Proofs.Session

/-!
A channel repeats what is known from its device and its name, so that it can report and check
without them.  Registration fills that in, and no recording changes it.
-/

namespace Metronome

/-- A channel that a device has registered under a name. -/
structure Channel.RegisteredOn (channel : Channel) (found : Device) (name : String) : Prop where
  admitted : found.kind.admits name = true
  device : channel.device = found.name
  kind : channel.kind = found.kind.channelKind name
  timeBase : channel.timeBase = found.timeBase

/-- A device with a time base, all of whose channels it has registered itself. -/
structure Device.Registered (timeBase : Float) (found : Device) : Prop where
  timeBase : found.timeBase = timeBase
  channels : ∀ {name channel}, found.channel name = .ok channel → channel.RegisteredOn found name

/-- An experiment with settings, all of whose devices have the time base of the settings. -/
structure Experiment.Registered (given : Settings) (experiment : Experiment) : Prop where
  settings : experiment.settings = given
  devices : ∀ device found, experiment.device device = .ok found →
    found.Registered given.timeBase

/-! ### Devices -/

namespace Device

variable {found : Device} {timeBase : Float} {name : String} {channel : Channel}

theorem registered_create (kind : DeviceKind) (line : ClockLine) :
    (create name kind line timeBase).Registered timeBase :=
  ⟨rfl, nofun⟩

theorem Registered.setChannel (registered : found.Registered timeBase)
    (added : channel.RegisteredOn found name) :
    (found.setChannel name channel).Registered timeBase := by
  refine ⟨registered.timeBase, fun lookup => ?_⟩
  rcases Experiment.channel_setChannel.1 lookup with ⟨rfl, rfl⟩ | ⟨-, old⟩
  · exact ⟨added.admitted, added.device, added.kind, added.timeBase⟩
  · obtain ⟨admitted, device, kind, same⟩ := registered.channels old
    exact ⟨admitted, device, kind, same⟩

theorem registered_clear : found.clear.Registered timeBase ↔ found.Registered timeBase := by
  constructor
  · rintro ⟨same, channels⟩
    refine ⟨same, fun {name channel} lookup => ?_⟩
    have cleared : found.clear.channel name = .ok channel.clear := by
      rw [clear, mapChannels, ← mapEach, channel_mapEach, lookup]
      rfl
    obtain ⟨admitted, device, kind, base⟩ := channels cleared
    exact ⟨admitted, device, kind, base⟩
  · rintro ⟨same, channels⟩
    refine ⟨same, fun {name channel} lookup => ?_⟩
    rw [clear, mapChannels, ← mapEach, channel_mapEach, Checks.map_eq_ok] at lookup
    obtain ⟨old, held, rfl⟩ := lookup
    obtain ⟨admitted, device, kind, base⟩ := channels held
    exact ⟨admitted, device, kind, base⟩

end Device

/-! ### Sessions -/

namespace Experiment

variable {before experiment : Experiment} {settings : Settings}

theorem registered_clear : experiment.clear.Registered settings ↔ experiment.Registered settings := by
  have devices := @forall_device_clear experiment
    (fun _ found => found.Registered settings.timeBase) fun _ _ => Device.registered_clear
  exact ⟨fun ⟨same, cleared⟩ => ⟨same, devices.1 cleared⟩,
    fun ⟨same, held⟩ => ⟨same, devices.2 held⟩⟩

theorem Registered.setDevice {held : Device} (registered : before.Registered settings)
    (added : held.Registered settings.timeBase) :
    (before.setDevice held).Registered settings := by
  refine ⟨registered.settings, fun device found lookup => ?_⟩
  rcases device_setDevice.1 lookup with ⟨-, rfl⟩ | ⟨-, old⟩
  · exact added
  · exact registered.devices device found old

/-- A channel that a device makes is registered on it. -/
theorem Registered.addChannel {device name : String} {found : Device} {default : Float}
    {channel : Channel} (registered : before.Registered settings)
    (lookup : before.device device = .ok found) (admitted : found.kind.admits name = true)
    (created : Channel.create found.name name (found.kind.channelKind name) default
      found.timeBase = .ok channel) :
    (before.setDevice (found.setChannel name channel)).Registered settings := by
  obtain ⟨-, rfl⟩ := Channel.create_eq_ok.1 created
  exact registered.setDevice
    ((registered.devices device found lookup).setChannel ⟨admitted, rfl, rfl, rfl⟩)

/-- Every command keeps it that channels carry what they were registered with. -/
theorem perform_registered (command : Command) :
    Steps.Keeps (fun experiment => experiment.Named ∧ experiment.Registered settings)
      (perform command) := by
  have typed : ∀ {device kind name default},
      Steps.Keeps (fun experiment => experiment.Named ∧ experiment.Registered settings)
        (Recorder.atomic fun experiment =>
          experiment.addTypedChannel device kind name default) := by
    intro device kind name default
    refine Recorder.keeps_atomic fun before after start made => ?_
    have registration := registration_of_addTypedChannel made
    obtain ⟨found, channel, lookup, -, admitted, -, created, rfl⟩ := addTypedChannel_eq_ok.1 made
    exact ⟨registration.named start.1, start.2.addChannel lookup admitted created⟩
  -- A recording leaves the same experiment when it is cleared, and this is all that matters here.
  cases registers : command.isRegistration with
  | false =>
      refine perform_keeps And.left command (fun yes => ?_) fun start recording =>
        ⟨recording.keeps (fun _ => named_clear) start.1,
          recording.keeps (fun _ => registered_clear) start.2⟩
      rw [registers] at yes
      cases yes
  | true =>
      cases command with
      | addDevice name kind line =>
          refine Recorder.keeps_atomic fun before after start made => ?_
          have registration := registration_of_addDevice made
          obtain ⟨-, rfl⟩ := addDevice_eq_ok.1 made
          refine ⟨registration.named start.1, start.2.setDevice ?_⟩
          rw [start.2.settings]
          exact Device.registered_create kind line
      | addAnalogChannel device id default => exact typed
      | addDigitalChannel device port line default => exact typed
      | addComposite device id gate => exact Steps.keeps_forM _ fun part _ => typed
      | addChannel device name default =>
          refine Recorder.keeps_atomic fun before after start made => ?_
          have registration := registration_of_addChannel made
          obtain ⟨found, channel, lookup, admitted, -, created, rfl⟩ := addChannel_eq_ok.1 made
          exact ⟨registration.named start.1, start.2.addChannel lookup admitted created⟩
      | _ => cases registers

/-- After every session the channels carry what they were registered with. -/
theorem session_registered {clockName : String} {minPeriod : Float} {new : Experiment}
    (made : create clockName minPeriod settings = .ok new) (commands : List Command) :
    (new.session commands).Registered settings := by
  have fresh : new.Registered settings := by
    refine ⟨?_, fun _ _ lookup => absurd lookup (device_create made)⟩
    obtain ⟨-, clock, -, rfl⟩ := create_eq_ok.1 made
    rfl
  exact (session_keeps (fun command _ => perform_registered command)
    ⟨named_create made, fresh⟩).2

/-- The channels of an experiment have the time base of the settings. -/
theorem Registered.timeBase {device name : String} {channel : Channel}
    (registered : experiment.Registered settings)
    (lookup : experiment.channel device name = .ok channel) :
    channel.timeBase = settings.timeBase := by
  obtain ⟨found, held, member⟩ := channel_eq_ok.1 lookup
  have rules := registered.devices device found held
  exact (rules.channels member).timeBase.trans rules.timeBase

end Experiment

end Metronome
