/-
Module: Metronome.Proofs.Lookup
Purpose: Experiments by what their devices and channels are found to be, and what registration and
  recording make of that.
Trusted boundary: none
Main exports:
  Experiment.Named, Experiment.mapEach, Experiment.adjust, Experiment.channel_mapEach,
  Experiment.record_eq_ok, Experiment.recordTyped_eq_ok, Experiment.reset_eq_ok,
  Experiment.addDevice_eq_ok, Experiment.addChannel_eq_ok
-/
import Metronome.Experiment
import Metronome.Proofs.Registry

/-!
A command addresses a device and a channel by their names, and writes back under the names that the
device and the channel carry themselves.  In an experiment in which the two agree, a recorded
instruction is a change of the addressed channel alone, and so is described by what every lookup
gives afterwards.
-/

namespace Metronome

/-! ### Lookups -/

theorem Device.channel_eq_ok {device : Device} {name : String} {channel : Channel} :
    device.channel name = .ok channel ↔ device.channels.get? name = some channel := by
  unfold Device.channel
  cases device.channels.get? name <;> simp

namespace Experiment

variable {experiment after : Experiment} {device name : String}

theorem device_eq_ok {found : Device} :
    experiment.device device = .ok found ↔ experiment.devices.get? device = some found := by
  unfold Experiment.device
  cases experiment.devices.get? device <;> simp

theorem channel_eq_ok {channel : Channel} :
    experiment.channel device name = .ok channel ↔
      ∃ found, experiment.device device = .ok found ∧ found.channel name = .ok channel :=
  Checks.bind_eq_ok

theorem typedChannel_eq_ok {kind : ChannelKind} {channel : Channel} :
    experiment.typedChannel device name kind = .ok channel ↔
      experiment.channel device name = .ok channel ∧ channel.kind = kind := by
  rw [typedChannel, Checks.bind_eq_ok]
  constructor
  · rintro ⟨found, lookup, typed⟩
    split at typed
    · rename_i same
      cases typed
      exact ⟨lookup, same⟩
    · cases typed
  · rintro ⟨lookup, same⟩
    exact ⟨channel, lookup, by rw [if_pos same]; rfl⟩

/-- All channels are those that are found under some device and some name. -/
theorem mem_channels_iff {channel : Channel} :
    channel ∈ experiment.channels ↔
      ∃ device name, experiment.channel device name = .ok channel := by
  simp only [channels, List.mem_flatMap, Registry.mem_values_iff, channel_eq_ok, device_eq_ok,
    Device.channel_eq_ok, Registry.get?_eq_some_iff]
  constructor
  · rintro ⟨found, ⟨device, registered⟩, name, member⟩
    exact ⟨device, name, found, registered, member⟩
  · rintro ⟨device, name, found, registered, member⟩
    exact ⟨found, ⟨device, registered⟩, name, member⟩

/-- Devices and channels carry the names under which they are registered. -/
structure Named (experiment : Experiment) : Prop where
  devices : ∀ {device found}, experiment.device device = .ok found → found.name = device
  channels : ∀ {device name channel}, experiment.channel device name = .ok channel →
    channel.name = name

/-! ### Changes of channels -/

end Experiment

namespace Device

variable {device : Device} {name : String}

/-- The device with every channel changed, under its name. -/
def mapEach (change : String → Channel → Channel) (device : Device) : Device :=
  { device with channels := device.channels.map change }

/-- A lookup in a changed device gives the changed channel, or the fault it gave before. -/
theorem channel_mapEach (change : String → Channel → Channel) :
    (device.mapEach change).channel name = change name <$> device.channel name := by
  unfold Device.channel mapEach
  rw [Registry.get?_map, Registry.names_map]
  cases device.channels.get? name <;> rfl

theorem mapEach_congr {first second : String → Channel → Channel}
    (same : ∀ name channel, device.channel name = .ok channel →
      first name channel = second name channel) :
    device.mapEach first = device.mapEach second :=
  congrArg (fun channels => { device with channels }) <| Registry.map_congr
    fun name channel member => same name channel
      (channel_eq_ok.2 (Registry.get?_eq_some_iff.2 member))

theorem mapEach_self : device.mapEach (fun _ channel => channel) = device :=
  congrArg (fun channels => { device with channels }) (Registry.ext_entries (by simp))

/-- Writing a channel back under its name changes that channel alone. -/
theorem setChannel_eq {channel : Channel} (found : device.channel name = .ok channel)
    (change : Channel → Channel) :
    device.setChannel name (change channel) =
      device.mapEach fun other old => if other = name then change old else old :=
  congrArg (fun channels => { device with channels })
    (Registry.insert_eq_map (channel_eq_ok.1 found) change)

end Device

namespace Experiment

variable {experiment after : Experiment} {device name : String}

/-- The experiment with every channel changed, under the names of its device and of its own. -/
def mapEach (change : String → String → Channel → Channel) (experiment : Experiment) :
    Experiment :=
  { experiment with
    devices := experiment.devices.map fun device found => found.mapEach (change device) }

/-- The experiment with one channel changed. -/
def adjust (device name : String) (change : Channel → Channel) (experiment : Experiment) :
    Experiment :=
  experiment.mapEach fun otherDevice otherName channel =>
    if otherDevice = device ∧ otherName = name then change channel else channel

theorem device_mapEach (change : String → String → Channel → Channel) :
    (experiment.mapEach change).device device =
      Device.mapEach (change device) <$> experiment.device device := by
  unfold Experiment.device mapEach
  rw [Registry.get?_map, Registry.names_map]
  cases experiment.devices.get? device <;> rfl

/-- A lookup in a changed experiment gives the changed channel, or the fault it gave before. -/
theorem channel_mapEach (change : String → String → Channel → Channel) :
    (experiment.mapEach change).channel device name =
      change device name <$> experiment.channel device name := by
  unfold Experiment.channel
  rw [device_mapEach]
  cases experiment.device device with
  | error fault => rfl
  | ok found => exact Device.channel_mapEach _

theorem channel_mapEach_eq_ok {change : String → String → Channel → Channel} {channel : Channel} :
    (experiment.mapEach change).channel device name = .ok channel ↔
      ∃ old, experiment.channel device name = .ok old ∧ change device name old = channel := by
  rw [channel_mapEach, Checks.map_eq_ok]

/-- A change of one channel leaves every other lookup as it was. -/
theorem channel_adjust_of_ne {change : Channel → Channel} {otherDevice otherName : String}
    (other : ¬ (otherDevice = device ∧ otherName = name)) :
    (experiment.adjust device name change).channel otherDevice otherName =
      experiment.channel otherDevice otherName := by
  rw [adjust, channel_mapEach]
  simp only [if_neg other]
  cases experiment.channel otherDevice otherName <;> rfl

/-- Changes that agree on the registered channels make the same experiment. -/
theorem mapEach_congr {first second : String → String → Channel → Channel}
    (same : ∀ device name channel, experiment.channel device name = .ok channel →
      first device name channel = second device name channel) :
    experiment.mapEach first = experiment.mapEach second :=
  congrArg (fun devices => { experiment with devices }) <| Registry.map_congr
    fun device found registered => Device.mapEach_congr fun name channel member =>
      same device name channel
        (channel_eq_ok.2 ⟨found, device_eq_ok.2 (Registry.get?_eq_some_iff.2 registered), member⟩)

theorem mapEach_mapEach (first second : String → String → Channel → Channel) :
    (experiment.mapEach first).mapEach second =
      experiment.mapEach fun device name channel =>
        second device name (first device name channel) := by
  simp only [mapEach, Device.mapEach, Registry.map_map]

/-- Writing a channel back under its own name changes the addressed channel alone. -/
theorem setChannel_eq (named : experiment.Named) {channel : Channel}
    (found : experiment.channel device name = .ok channel) (change : Channel → Channel)
    (keepsName : (change channel).name = channel.name) :
    experiment.setChannel device (change channel) = .ok (experiment.adjust device name change) := by
  obtain ⟨held, lookup, member⟩ := channel_eq_ok.1 found
  have written : held.setChannel (change channel).name (change channel) =
      held.mapEach fun other old => if other = name then change old else old := by
    rw [keepsName, named.channels found]
    exact Device.setChannel_eq member change
  have ownName : held.name = device := named.devices lookup
  have stays : (held.mapEach fun other old => if other = name then change old else old).name =
      device := ownName
  rw [setChannel, lookup]
  refine congrArg Except.ok ?_
  rw [written, setDevice, stays, Registry.insert_eq_map (device_eq_ok.1 lookup)
    (Device.mapEach fun other old => if other = name then change old else old)]
  refine congrArg (fun devices => { experiment with devices }) (Registry.map_congr ?_)
  intro otherDevice old _
  by_cases same : otherDevice = device
  · simp only [same, if_true, true_and]
  · simp only [same, if_false, false_and]
    exact Device.mapEach_self.symm

end Experiment

/-! ### Recording -/

theorem Channel.record_eq_ok {channel changed : Channel} {instruction : Instruction} {t : Float}
    {timing : Option RampTiming} :
    channel.record instruction t timing = .ok changed ↔
      ∃ added, channel.place instruction t timing = .ok added ∧
        channel.insert added = changed :=
  Checks.map_eq_ok

namespace Experiment

variable {experiment after : Experiment} {device name : String} {instruction : Instruction}
  {t : Float} {timing : Option RampTiming}

/-- An instruction is recorded exactly if its channel is found and admits it, and it changes that
channel alone. -/
theorem record_eq_ok (named : experiment.Named) :
    experiment.record device name instruction t timing = .ok after ↔
      ∃ channel added, experiment.channel device name = .ok channel ∧
        channel.place instruction t timing = .ok added ∧
        after = experiment.adjust device name (Channel.insert · added) := by
  simp only [record, Checks.bind_eq_ok, Channel.record_eq_ok]
  constructor
  · rintro ⟨channel, found, _, ⟨added, admitted, rfl⟩, made⟩
    rw [setChannel_eq named found (Channel.insert · added) rfl] at made
    exact ⟨channel, added, found, admitted, (Except.ok.inj made).symm⟩
  · rintro ⟨channel, added, found, admitted, rfl⟩
    exact ⟨channel, found, _, ⟨added, admitted, rfl⟩,
      setChannel_eq named found (Channel.insert · added) rfl⟩

/-- On a channel of the right kind an instruction is recorded as on any channel. -/
theorem recordTyped_eq_ok (named : experiment.Named) {kind : ChannelKind} :
    experiment.recordTyped device name kind instruction t timing = .ok after ↔
      ∃ channel added, experiment.typedChannel device name kind = .ok channel ∧
        channel.place instruction t timing = .ok added ∧
        after = experiment.adjust device name (Channel.insert · added) := by
  simp only [recordTyped, Checks.bind_eq_ok, Channel.record_eq_ok]
  constructor
  · rintro ⟨channel, typed, _, ⟨added, admitted, rfl⟩, made⟩
    have found := (typedChannel_eq_ok.1 typed).1
    rw [setChannel_eq named found (Channel.insert · added) rfl] at made
    exact ⟨channel, added, typed, admitted, (Except.ok.inj made).symm⟩
  · rintro ⟨channel, added, typed, admitted, rfl⟩
    have found := (typedChannel_eq_ok.1 typed).1
    exact ⟨channel, typed, _, ⟨added, admitted, rfl⟩,
      setChannel_eq named found (Channel.insert · added) rfl⟩

/-- A channel admits its default value at the time of a reset. -/
def AdmitsReset (experiment : Experiment) (t : Option Float) (channel : Channel) : Prop :=
  ∃ added, channel.place (.constant channel.default) (experiment.resetTime t) none = .ok added

/-- The placement that a reset adds to a channel where it is admitted. -/
def resetPlacement (experiment : Experiment) (t : Option Float) (channel : Channel) : Placement :=
  (channel.place (.constant channel.default) (experiment.resetTime t) none).toOption.getD default

/-- Placements that are made for the channels in order are put on the channels they are made for. -/
theorem deal_channels (placement : Channel → Placement) :
    experiment.deal (experiment.channels.map placement) =
      experiment.mapEach fun _ _ channel => channel.insert (placement channel) := by
  have onDevice : ∀ found : Device, ∀ rest,
      found.deal (found.channels.values.map placement ++ rest) =
        (found.mapEach fun _ channel => channel.insert (placement channel), rest) := by
    intro found rest
    have dealt : found.channels.thread Channel.takeFirst
        (found.channels.values.flatMap (fun channel => [placement channel]) ++ rest) =
          (found.channels.map fun _ channel => channel.insert (placement channel), rest) :=
      Registry.thread_flatMap fun _ _ _ => rfl
    rw [List.map_eq_flatMap, Device.deal, dealt]
    rfl
  have onAll : experiment.devices.thread Device.deal
      (experiment.devices.values.flatMap (fun found => found.channels.values.map placement) ++
        []) = (experiment.devices.map fun _ found =>
          found.mapEach fun _ channel => channel.insert (placement channel), []) :=
    Registry.thread_flatMap fun found _ => onDevice found
  rw [List.append_nil] at onAll
  rw [deal, channels, List.map_flatMap, onAll]
  rfl

/-- A reset succeeds exactly if every channel admits its default value at the time of the reset, and
then it adds to every channel the placement that this channel admits. -/
theorem reset_eq_ok {t : Option Float} :
    experiment.reset t = .ok after ↔
      (∀ channel ∈ experiment.channels, experiment.AdmitsReset t channel) ∧
      after = experiment.mapEach fun _ _ channel =>
        channel.insert (experiment.resetPlacement t channel) := by
  have placed : ∀ channel : Channel, ∀ added,
      channel.place (.constant channel.default) (experiment.resetTime t) none = .ok added ↔
        experiment.AdmitsReset t channel ∧ added = experiment.resetPlacement t channel :=
    fun _ _ => Checks.eq_ok_iff
  rw [reset, Checks.bind_eq_ok, ← deal_channels]
  constructor
  · rintro ⟨placements, made, dealt⟩
    obtain ⟨admitted, rfl⟩ := (Checks.mapM_eq_ok_map placed).1 made
    exact ⟨admitted, (Except.ok.inj dealt).symm⟩
  · rintro ⟨admitted, rfl⟩
    exact ⟨_, (Checks.mapM_eq_ok_map placed).2 ⟨admitted, rfl⟩, rfl⟩

/-! ### Registration -/

theorem device_setDevice {found held : Device} :
    (experiment.setDevice held).device device = .ok found ↔
      device = held.name ∧ found = held ∨
        device ≠ held.name ∧ experiment.device device = .ok found := by
  rw [device_eq_ok, device_eq_ok, setDevice, Registry.get?_insert]
  by_cases same : device = held.name
  · simp [same, eq_comm]
  · simp [same]

theorem channel_setChannel {found : Device} {held channel : Channel} {other : String} :
    (found.setChannel name held).channel other = .ok channel ↔
      other = name ∧ channel = held ∨ other ≠ name ∧ found.channel other = .ok channel := by
  rw [Device.channel_eq_ok, Device.channel_eq_ok, Device.setChannel, Registry.get?_insert]
  by_cases same : other = name
  · simp [same, eq_comm]
  · simp [same]

/-- A device is registered exactly if its name is neither a device's nor the clock's. -/
theorem addDevice_eq_ok {kind : DeviceKind} {line : ClockLine} :
    experiment.addDevice device kind line = .ok after ↔
      (device ∉ experiment.devices.names ∧ experiment.clock.name ≠ device) ∧
        after = experiment.setDevice (.create device kind line experiment.settings.timeBase) := by
  rw [addDevice]
  split
  · rename_i taken
    simp only [Bool.or_eq_true, Registry.contains_iff, decide_eq_true_eq] at taken
    simp only [reduceCtorEq, false_iff]
    rintro ⟨⟨isNew, notClock⟩, -⟩
    exact taken.elim isNew notClock
  · rename_i free
    simp only [Bool.or_eq_true, Registry.contains_iff, decide_eq_true_eq, not_or] at free
    simp only [Except.ok.injEq, free, ne_eq, not_false_iff, and_self, true_and, eq_comm]

/-- A device takes a channel exactly if it admits its name, the name is new to it, and the channel
can hold its default value. -/
theorem deviceAddChannel_eq_ok {found changed : Device} {default : Float} :
    found.addChannel name default = .ok changed ↔
      ∃ channel, found.kind.admits name = true ∧ name ∉ found.channels.names ∧
        Channel.create found.name name (found.kind.channelKind name) default found.timeBase =
          .ok channel ∧ changed = found.setChannel name channel := by
  rw [Device.addChannel]
  by_cases admitted : found.kind.admits name = true
  · by_cases isNew : name ∈ found.channels.names
    · simp [admitted, isNew, Registry.contains_iff]
    · simp only [admitted, isNew, Registry.contains_iff, Bool.not_true, if_false, not_false_iff,
        true_and, Bool.false_eq_true, Checks.map_eq_ok]
      exact exists_congr fun _ => and_congr_right fun _ => eq_comm
  · simp [admitted]

theorem addChannel_eq_ok {default : Float} :
    experiment.addChannel device name default = .ok after ↔
      ∃ found channel, experiment.device device = .ok found ∧ found.kind.admits name = true ∧
        name ∉ found.channels.names ∧
        Channel.create found.name name (found.kind.channelKind name) default found.timeBase =
          .ok channel ∧
        after = experiment.setDevice (found.setChannel name channel) := by
  simp only [addChannel, Checks.bind_eq_ok, deviceAddChannel_eq_ok]
  constructor
  · rintro ⟨found, lookup, _, ⟨channel, admitted, isNew, created, rfl⟩, made⟩
    cases made
    exact ⟨found, channel, lookup, admitted, isNew, created, rfl⟩
  · rintro ⟨found, channel, lookup, admitted, isNew, created, rfl⟩
    exact ⟨found, lookup, _, ⟨channel, admitted, isNew, created, rfl⟩, rfl⟩

/-- On a device of the right kind a channel is registered as on any device. -/
theorem addTypedChannel_eq_ok {kind : DeviceKind} {default : Float} :
    experiment.addTypedChannel device kind name default = .ok after ↔
      ∃ found channel, experiment.device device = .ok found ∧ found.kind = kind ∧
        found.kind.admits name = true ∧ name ∉ found.channels.names ∧
        Channel.create found.name name (found.kind.channelKind name) default found.timeBase =
          .ok channel ∧
        after = experiment.setDevice (found.setChannel name channel) := by
  rw [addTypedChannel, Checks.bind_eq_ok]
  constructor
  · rintro ⟨found, lookup, made⟩
    split at made
    · rename_i same
      obtain ⟨changed, taken, set⟩ := Checks.bind_eq_ok.1 made
      obtain ⟨channel, admitted, isNew, created, rfl⟩ := deviceAddChannel_eq_ok.1 taken
      cases set
      exact ⟨found, channel, lookup, same, admitted, isNew, created, rfl⟩
    · cases made
  · rintro ⟨found, channel, lookup, same, admitted, isNew, created, rfl⟩
    refine ⟨found, lookup, ?_⟩
    rw [if_pos same, deviceAddChannel_eq_ok.2 ⟨channel, admitted, isNew, created, rfl⟩]
    rfl

end Experiment
end Metronome
