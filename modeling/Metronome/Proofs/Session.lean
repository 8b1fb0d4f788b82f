/-
Module: Metronome.Proofs.Session
Purpose: What any command can do to an experiment, and what sessions of commands keep.
Trusted boundary: none
Main exports:
  Pseudoclock.addWait_eq_ok, Channel.Extends, Experiment.Recording, Experiment.Registration,
  Experiment.perform_keeps, Experiment.session, Experiment.session_keeps, Experiment.perform_named
-/
import Metronome.Proofs.Lookup
import Metronome.Proofs.Steps

/-!
Every command, successful or not, leaves behind what a sequence of elementary changes makes of the
experiment.  A recording adds a wait, or lets channels take placements that they admit, or clears
everything; a registration adds an empty device or an empty channel.  A property that both kinds
of changes keep holds in every session of any length.
-/

namespace Metronome

/-- What a recording makes of a channel: it stays, or takes a placement that it admits. -/
def Channel.Extends (before after : Channel) : Prop :=
  after = before ∨ ∃ instruction t timing added,
    before.place instruction t timing = .ok added ∧ after = before.insert added

theorem Channel.create_eq_ok {device name : String} {kind : ChannelKind} {default timeBase : Float}
    {channel : Channel} :
    create device name kind default timeBase = .ok channel ↔
      channel.checkValue default 0 = .ok () ∧
        channel = ⟨name, device, kind, default, timeBase, .empty⟩ := by
  rw [create, Checks.bind_eq_ok]
  constructor
  · rintro ⟨_, checked, made⟩
    cases made
    exact ⟨checked, rfl⟩
  · rintro ⟨checked, rfl⟩
    exact ⟨(), checked, rfl⟩

/-- A wait is added exactly if it lies after the start, where no other wait is, with a timeout that
is positive or none. -/
theorem Pseudoclock.addWait_eq_ok {clock changed : Pseudoclock} {label : String} {t : Float}
    {timeout : Option Float} :
    clock.addWait label t timeout = .ok changed ↔
      ∃ position, TimeGrid.position t clock.timeBase clock.name = .ok position ∧ position ≠ 0 ∧
        (∀ limit, timeout = some limit → limit.isFinite = true ∧ ¬ limit ≤ 0) ∧
        clock.waits.find? position = none ∧
        changed = { clock with waits := clock.waits.insert ⟨position, label, t, timeout⟩ } := by
  rw [Pseudoclock.addWait, Checks.bind_eq_ok]
  refine exists_congr fun position => and_congr_right fun _ => ?_
  have refused : ∀ {fault : Fault} {rest : Except Fault Pseudoclock},
      (do Except.error fault; rest) ≠ .ok changed := by
    intro fault rest made
    cases made
  have fits : (∀ limit, timeout = some limit → limit.isFinite = true ∧ ¬ limit ≤ 0) ↔
      ∀ limit, timeout = some limit → (!limit.isFinite || decide (limit ≤ 0)) = false := by
    simp
  rw [fits]
  by_cases atStart : position = 0
  · rw [if_pos atStart]
    exact iff_of_false refused fun admitted => admitted.1 atStart
  · rw [if_neg atStart]
    cases timeout with
    | none =>
        cases taken : clock.waits.find? position with
        | some other => exact iff_of_false refused (by simp)
        | none =>
            exact ⟨fun made => ⟨atStart, by simp, rfl, (Except.ok.inj made).symm⟩,
              fun admitted => congrArg Except.ok admitted.2.2.2.symm⟩
    | some limit =>
        by_cases bad : (!limit.isFinite || decide (limit ≤ 0)) = true
        · simp only [bad, if_true]
          refine iff_of_false refused fun admitted => ?_
          rw [admitted.2.1 limit rfl] at bad
          exact Bool.false_ne_true bad
        · simp only [bad]
          cases taken : clock.waits.find? position with
          | some other => exact iff_of_false refused (by simp)
          | none =>
              exact ⟨fun made => ⟨atStart, by simpa using bad, rfl, (Except.ok.inj made).symm⟩,
                fun admitted => congrArg Except.ok admitted.2.2.2.symm⟩

/-- The commands that add a device or channels. -/
def Command.isRegistration : Command → Bool
  | .addDevice .. | .addAnalogChannel .. | .addDigitalChannel .. | .addComposite ..
  | .addChannel .. => true
  | _ => false

namespace Experiment

/-- The changes that recording is made of. -/
inductive Recording (before : Experiment) : Experiment → Prop where
  | wait {label : String} {t : Float} {timeout : Option Float} {clock : Pseudoclock}
      (admitted : before.clock.addWait label t timeout = .ok clock) :
      Recording before { before with clock }
  | instructions {change : String → String → Channel → Channel}
      (each : ∀ {device name channel}, before.channel device name = .ok channel →
        channel.Extends (change device name channel)) :
      Recording before (before.mapEach change)
  | clear : Recording before before.clear

/-- The changes that registration is made of. -/
inductive Registration (before : Experiment) : Experiment → Prop where
  | device {name : String} {kind : DeviceKind} {line : ClockLine} {timeBase : Float}
      (isNew : name ∉ before.devices.names) :
      Registration before (before.setDevice (.create name kind line timeBase))
  | channel {device name : String} {found : Device} {default : Float} {channel : Channel}
      (lookup : before.device device = .ok found) (admitted : found.kind.admits name = true)
      (isNew : name ∉ found.channels.names)
      (created : Channel.create found.name name (found.kind.channelKind name) default
        found.timeBase = .ok channel) :
      Registration before (before.setDevice (found.setChannel name channel))

variable {before after experiment : Experiment} {device name : String} {instruction : Instruction}
  {t : Float} {timing : Option RampTiming} {default : Float} {holds : Experiment → Prop}

/-! ### What changes leave as it was -/

/-- Recording changes nothing but instructions and waits. -/
theorem Recording.clear_eq (recording : Recording before after) : after.clear = before.clear := by
  cases recording with
  | wait admitted =>
      obtain ⟨position, -, -, -, -, rfl⟩ := Pseudoclock.addWait_eq_ok.1 admitted
      rfl
  | @instructions change each =>
      have cleared : (before.mapEach change).mapEach (fun _ _ => Channel.clear) =
          before.mapEach fun _ _ => Channel.clear := by
        rw [mapEach_mapEach]
        refine mapEach_congr fun device name channel found => ?_
        rcases each found with same | ⟨_, _, _, _, -, same⟩
        · rw [same]
        · rw [same]
          rfl
      exact congrArg (fun cleared : Experiment => { cleared with clock := before.clock.clear })
        cleared
  | clear =>
      have cleared : (before.mapEach fun _ _ => Channel.clear).mapEach (fun _ _ => Channel.clear) =
          before.mapEach fun _ _ => Channel.clear := mapEach_mapEach ..
      exact congrArg (fun cleared : Experiment => { cleared with clock := before.clock.clear })
        cleared

/-- A property that does not depend on instructions and waits is kept by recording. -/
theorem Recording.keeps (recording : Recording before after)
    (independent : ∀ experiment, holds (Experiment.clear experiment) ↔ holds experiment)
    (start : holds before) : holds after := by
  rw [← independent, recording.clear_eq, independent]
  exact start

theorem device_clear : experiment.clear.device device = Device.clear <$> experiment.device device :=
  device_mapEach _

theorem channel_clear :
    experiment.clear.channel device name = Channel.clear <$> experiment.channel device name :=
  @channel_mapEach experiment _ _ fun _ _ => Channel.clear

/-- What holds of every device holds of every cleared one, if it does not depend on instructions. -/
theorem forall_device_clear {rule : String → Device → Prop}
    (independent : ∀ device found, rule device (Device.clear found) ↔ rule device found) :
    (∀ device found, experiment.clear.device device = .ok found → rule device found) ↔
      ∀ device found, experiment.device device = .ok found → rule device found := by
  simp only [device_clear, Checks.map_eq_ok]
  constructor
  · intro cleared device found lookup
    exact (independent device found).1 (cleared device found.clear ⟨found, lookup, rfl⟩)
  · rintro rules device _ ⟨found, lookup, rfl⟩
    exact (independent device found).2 (rules device found lookup)

theorem names_clear (found : Device) : found.clear.channels.names = found.channels.names :=
  Registry.names_map ..

theorem named_clear : experiment.clear.Named ↔ experiment.Named := by
  constructor
  · rintro ⟨devices, channels⟩
    refine ⟨fun {device found} lookup => ?_, fun {device name channel} lookup => ?_⟩
    · have cleared : experiment.clear.device device = .ok found.clear := by
        rw [device_clear, lookup]
        rfl
      have ownName := devices cleared
      exact ownName
    · have cleared : experiment.clear.channel device name = .ok channel.clear := by
        rw [channel_clear, lookup]
        rfl
      have ownName := channels cleared
      exact ownName
  · rintro ⟨devices, channels⟩
    refine ⟨fun lookup => ?_, fun lookup => ?_⟩
    · rw [device_clear, Checks.map_eq_ok] at lookup
      obtain ⟨found, held, rfl⟩ := lookup
      exact (devices held : found.name = _)
    · rw [channel_clear, Checks.map_eq_ok] at lookup
      obtain ⟨channel, held, rfl⟩ := lookup
      exact (channels held : channel.name = _)

/-! ### What registration adds -/

/-- A new device has no channels, and every other channel is found as before. -/
theorem channel_addDevice {kind : DeviceKind} {line : ClockLine} {timeBase : Float}
    (isNew : device ∉ before.devices.names) {other : String} {channel : Channel} :
    (before.setDevice (.create device kind line timeBase)).channel other name = .ok channel ↔
      before.channel other name = .ok channel := by
  simp only [channel_eq_ok, device_setDevice]
  constructor
  · rintro ⟨found, ⟨-, rfl⟩ | ⟨-, lookup⟩, member⟩
    · cases member
    · exact ⟨found, lookup, member⟩
  · rintro ⟨found, lookup, member⟩
    refine ⟨found, Or.inr ⟨?_, lookup⟩, member⟩
    rintro rfl
    rw [device_eq_ok, Registry.get?_eq_none_iff.2 isNew] at lookup
    cases lookup

/-- A new channel is found under its name, and every other channel as before. -/
theorem channel_addChannel (named : before.Named) {found : Device} {added channel : Channel}
    (lookup : before.device device = .ok found) (isNew : name ∉ found.channels.names)
    {otherDevice otherName : String} :
    (before.setDevice (found.setChannel name added)).channel otherDevice otherName = .ok channel ↔
      (otherDevice = device ∧ otherName = name) ∧ channel = added ∨
        before.channel otherDevice otherName = .ok channel := by
  have ownName : found.name = device := named.devices lookup
  have stays : (found.setChannel name added).name = device := ownName
  simp only [channel_eq_ok, device_setDevice, stays]
  constructor
  · rintro ⟨held, ⟨rfl, rfl⟩ | ⟨-, otherLookup⟩, member⟩
    · rcases channel_setChannel.1 member with ⟨rfl, rfl⟩ | ⟨-, old⟩
      · exact Or.inl ⟨⟨rfl, rfl⟩, rfl⟩
      · exact Or.inr ⟨found, lookup, old⟩
    · exact Or.inr ⟨held, otherLookup, member⟩
  · rintro (⟨⟨rfl, rfl⟩, rfl⟩ | ⟨held, otherLookup, member⟩)
    · exact ⟨_, Or.inl ⟨rfl, rfl⟩, channel_setChannel.2 (Or.inl ⟨rfl, rfl⟩)⟩
    · by_cases same : otherDevice = device
      · subst same
        rw [lookup] at otherLookup
        cases otherLookup
        refine ⟨_, Or.inl ⟨rfl, rfl⟩, channel_setChannel.2 (Or.inr ⟨?_, member⟩)⟩
        rintro rfl
        rw [Device.channel_eq_ok, Registry.get?_eq_none_iff.2 isNew] at member
        cases member
      · exact ⟨held, Or.inr ⟨same, otherLookup⟩, member⟩

/-- A device with a channel more has one name more. -/
theorem mem_names_setChannel {found : Device} {channel : Channel} {name other : String} :
    other ∈ (found.setChannel name channel).channels.names ↔
      other = name ∨ other ∈ found.channels.names := by
  rw [Device.setChannel, Registry.names_insert]
  split
  · rename_i known
    exact ⟨Or.inr, fun member => member.elim (fun same => same ▸ known) id⟩
  · simp [or_comm]

/-- Registration keeps names and keys the same. -/
theorem Registration.named (registration : Registration before after) (named : before.Named) :
    after.Named := by
  cases registration with
  | device isNew =>
      refine ⟨fun {_ found} lookup => ?_, fun lookup =>
        named.channels ((channel_addDevice isNew).1 lookup)⟩
      rcases device_setDevice.1 lookup with ⟨rfl, rfl⟩ | ⟨-, old⟩
      · rfl
      · exact named.devices old
  | channel lookup admitted isNew created =>
      refine ⟨fun {_ found} otherLookup => ?_, fun {_ _ channel} otherLookup => ?_⟩
      · rcases device_setDevice.1 otherLookup with ⟨rfl, rfl⟩ | ⟨-, old⟩
        · rfl
        · exact named.devices old
      · rcases (channel_addChannel named lookup isNew).1 otherLookup with ⟨⟨-, rfl⟩, rfl⟩ | old
        · obtain ⟨-, rfl⟩ := Channel.create_eq_ok.1 created
          rfl
        · exact named.channels old

/-! ### Elementary changes -/

/-- A placement that one channel admits is a recording. -/
theorem Recording.adjust {channel : Channel} {added : Placement}
    (found : before.channel device name = .ok channel)
    (admitted : channel.place instruction t timing = .ok added) :
    Recording before (before.adjust device name (Channel.insert · added)) := by
  refine .instructions fun {otherDevice otherName other} otherFound => ?_
  split
  · rename_i same
    rw [same.1, same.2, found] at otherFound
    cases otherFound
    exact Or.inr ⟨_, _, _, _, admitted, rfl⟩
  · exact Or.inl rfl

theorem recording_of_record (named : before.Named)
    (made : before.record device name instruction t timing = .ok after) :
    Recording before after := by
  obtain ⟨channel, added, found, admitted, rfl⟩ := (record_eq_ok named).1 made
  exact .adjust found admitted

theorem recording_of_recordTyped (named : before.Named) {kind : ChannelKind}
    (made : before.recordTyped device name kind instruction t timing = .ok after) :
    Recording before after := by
  obtain ⟨channel, added, typed, admitted, rfl⟩ := (recordTyped_eq_ok named).1 made
  exact .adjust (typedChannel_eq_ok.1 typed).1 admitted

theorem recording_of_addWait {label : String} {timeout : Option Float}
    (made : before.addWait label t timeout = .ok after) : Recording before after := by
  obtain ⟨clock, admitted, set⟩ := Checks.bind_eq_ok.1 made
  cases set
  exact .wait admitted

theorem recording_of_reset {t : Option Float} (made : before.reset t = .ok after) :
    Recording before after := by
  obtain ⟨admitted, rfl⟩ := reset_eq_ok.1 made
  refine .instructions fun {device name channel} found => ?_
  obtain ⟨added, placed⟩ := admitted channel (mem_channels_iff.2 ⟨device, name, found⟩)
  rw [resetPlacement, placed]
  exact Or.inr ⟨_, _, _, _, placed, rfl⟩

theorem registration_of_addDevice {kind : DeviceKind} {line : ClockLine}
    (made : before.addDevice name kind line = .ok after) : Registration before after := by
  obtain ⟨⟨isNew, -⟩, rfl⟩ := addDevice_eq_ok.1 made
  exact .device isNew

theorem registration_of_addChannel (made : before.addChannel device name default = .ok after) :
    Registration before after := by
  obtain ⟨found, channel, lookup, admitted, isNew, created, rfl⟩ := addChannel_eq_ok.1 made
  exact .channel lookup admitted isNew created

theorem registration_of_addTypedChannel {kind : DeviceKind}
    (made : before.addTypedChannel device kind name default = .ok after) :
    Registration before after := by
  obtain ⟨found, channel, lookup, -, admitted, isNew, created, rfl⟩ := addTypedChannel_eq_ok.1 made
  exact .channel lookup admitted isNew created

/-! ### Commands -/

/-- A property of experiments with matching names that is kept by the elementary changes is kept by
every command, also where the command fails. -/
theorem perform_keeps (named : ∀ {before}, holds before → before.Named) (command : Command)
    (registers : command.isRegistration = true → ∀ {before after}, holds before →
      Registration before after → holds after)
    (records : ∀ {before after}, holds before → Recording before after → holds after) :
    Steps.Keeps holds (perform command) := by
  have registering : command.isRegistration = true → ∀ {device kind name default},
      Steps.Keeps holds (Recorder.atomic fun experiment =>
        experiment.addTypedChannel device kind name default) :=
    fun isRegistration => Recorder.keeps_atomic fun _ _ start made =>
      registers isRegistration start (registration_of_addTypedChannel made)
  have recording : ∀ {device name kind instruction t timing},
      Steps.Keeps holds (Recorder.atomic fun experiment =>
        experiment.recordTyped device name kind instruction t timing) :=
    Recorder.keeps_atomic fun _ _ start made =>
      records start (recording_of_recordTyped (named start) made)
  cases command with
  | addDevice name kind line =>
      exact Recorder.keeps_atomic fun _ _ start made =>
        registers rfl start (registration_of_addDevice made)
  | addAnalogChannel device id default => exact registering rfl
  | addDigitalChannel device port line default => exact registering rfl
  | addComposite device id gate =>
      exact Steps.keeps_forM _ fun part _ => registering rfl
  | addChannel device name default =>
      exact Recorder.keeps_atomic fun _ _ start made =>
        registers rfl start (registration_of_addChannel made)
  | wait label t timeout =>
      exact Recorder.keeps_atomic fun _ _ start made => records start (recording_of_addWait made)
  | constant device channel t value => exact recording
  | level device channel high t => exact recording
  | pulse device channel high t duration =>
      exact Steps.keeps_bind (recording) fun _ => recording
  | linear device channel t timing start finish => exact recording
  | exponential device channel t timing start finish offset => exact recording
  | sine device channel t timing freq amplitude phase offset => exact recording
  | setComposite device id t freq amp phase =>
      refine Steps.keeps_bind Steps.keeps_get fun found => Steps.keeps_bind ?_ fun _ => ?_
      · refine Steps.keeps_forM _ fun _ _ => ?_
        exact Steps.keeps_bind (Steps.keeps_lift _) fun channel =>
          Steps.keeps_bind (Steps.keeps_lift _) fun _ => Steps.keeps_pure ()
      · exact Steps.keeps_forM _ fun _ _ => recording
  | reset t =>
      exact Recorder.keeps_atomic fun _ _ start made => records start (recording_of_reset made)
  | instruction device channel instruction t timing =>
      exact Recorder.keeps_atomic fun _ _ start made =>
        records start (recording_of_record (named start) made)
  | clear =>
      refine Recorder.keeps_atomic fun _ _ start made => ?_
      cases made
      exact records start .clear

/-! ### Sessions -/

/-- The experiment after a session of commands, each of them successful or not. -/
def session (experiment : Experiment) (commands : List Command) : Experiment :=
  commands.foldl (fun before command => (before.after command).1) experiment

theorem after_fst (command : Command) :
    (before.after command).1 = ((perform command).run before).2 := by
  rw [Experiment.after]
  rcases (perform command).run before with ⟨result, reached⟩
  cases result <;> rfl

/-- A property that each command of a session keeps is kept by the session. -/
theorem session_keeps {commands : List Command}
    (kept : ∀ command ∈ commands, Steps.Keeps holds (perform command)) (start : holds experiment) :
    holds (experiment.session commands) := by
  induction commands generalizing experiment with
  | nil => exact start
  | cons command rest ih =>
      have next : holds (experiment.after command).1 := by
        rw [after_fst]
        exact kept command List.mem_cons_self experiment start
      exact ih (fun other member => kept other (List.mem_cons_of_mem _ member)) next

/-- A new experiment has no devices and a clock without waits. -/
theorem create_eq_ok {clockName : String} {minPeriod : Float} {settings : Settings} :
    create clockName minPeriod settings = .ok experiment ↔
      settings.check = .ok () ∧ ∃ clock, Pseudoclock.create clockName minPeriod settings.timeBase =
        .ok clock ∧ experiment = ⟨clock, .empty, settings⟩ := by
  simp only [create, Checks.bind_eq_ok]
  constructor
  · rintro ⟨_, checked, clock, made, set⟩
    cases set
    exact ⟨checked, clock, made, rfl⟩
  · rintro ⟨checked, clock, made, rfl⟩
    exact ⟨(), checked, clock, made, rfl⟩

theorem device_create {clockName : String} {minPeriod : Float} {settings : Settings}
    (made : create clockName minPeriod settings = .ok experiment) {found : Device} :
    experiment.device device ≠ .ok found := by
  obtain ⟨-, clock, -, rfl⟩ := create_eq_ok.1 made
  intro lookup
  cases lookup

theorem channel_create {clockName : String} {minPeriod : Float} {settings : Settings}
    (made : create clockName minPeriod settings = .ok experiment) {channel : Channel} :
    experiment.channel device name ≠ .ok channel := by
  intro found
  obtain ⟨held, lookup, -⟩ := channel_eq_ok.1 found
  exact device_create made lookup

theorem named_create {clockName : String} {minPeriod : Float} {settings : Settings}
    (made : create clockName minPeriod settings = .ok experiment) : experiment.Named :=
  ⟨fun lookup => absurd lookup (device_create made),
    fun found => absurd found (channel_create made)⟩

/-- Commands keep it that devices and channels carry the names under which they are registered. -/
theorem perform_named (command : Command) : Steps.Keeps Named (perform command) :=
  perform_keeps id command (fun _ _ _ start registration => registration.named start)
    fun start recording => recording.keeps (fun _ => named_clear) start

end Experiment
end Metronome
