/-
Module: Metronome.Proofs.Clearing
Purpose: A cleared experiment is the one on which nothing but the registrations has happened.
Trusted boundary: none
Main exports:
  Experiment.perform_clear, Experiment.after_clear, Experiment.after_recording_clear,
  Experiment.clear_session, Experiment.answers, Experiment.session_clear
-/
import Metronome.Experiment.Compiled
import Metronome.Proofs.Soundness

/-!
Clearing is a view of an experiment that shows the registered devices and channels and hides what is
recorded on them.  A recording, successful or not, leaves this view as it was.  A registration sees
nothing else: on the view it answers as on the experiment, and what it leaves is the view of what it
leaves there.  Along a session the two facts compose, and only the registrations remain.
-/

namespace Metronome

/-! ### Registration on a cleared experiment -/

/-- The largest of numbers that are all zero is zero. -/
theorem Chronology.foldl_max_eq_zero {α : Type} {measure : α → Nat} {items : List α}
    (zeros : ∀ item ∈ items, measure item = 0) :
    items.foldl (fun last item => max last (measure item)) 0 = 0 := by
  induction items with
  | nil => rfl
  | cons first rest ih =>
      obtain ⟨firstZero, restZeros⟩ := List.forall_mem_cons.1 zeros
      rw [List.foldl_cons, firstZero]
      exact ih restZeros

/-- A new clock has no waits to clear. -/
theorem Pseudoclock.clear_create {name : String} {minPeriod timeBase : Float}
    {clock : Pseudoclock} (made : create name minPeriod timeBase = .ok clock) :
    clock.clear = clock := by
  unfold create at made
  split at made
  · split at made
    · cases made
      rfl
    · cases made
  · cases made

namespace Device

variable {device : Device} {name : String}

@[simp] theorem clear_name : device.clear.name = device.name := rfl

@[simp] theorem clear_kind : device.clear.kind = device.kind := rfl

@[simp] theorem clear_timeBase : device.clear.timeBase = device.timeBase := rfl

@[simp] theorem contains_clear :
    device.clear.channels.contains name = device.channels.contains name := by
  simp [Registry.contains, clear, mapChannels]

theorem clear_setChannel (channel : Channel) :
    (device.setChannel name channel).clear = device.clear.setChannel name channel.clear :=
  congrArg (fun channels => { device with channels }) (Registry.map_insert ..)

/-- A channel is added to a cleared device as to the device, since a new channel is empty. -/
theorem addChannel_clear (default : Float) :
    device.clear.addChannel name default = Device.clear <$> device.addChannel name default := by
  simp only [addChannel, clear_name, clear_kind, clear_timeBase, contains_clear]
  split
  · rfl
  · split
    · rfl
    · cases made : Channel.create device.name name (device.kind.channelKind name) default
          device.timeBase with
      | error fault => rfl
      | ok channel =>
          have empty : channel.clear = channel := by
            obtain ⟨-, rfl⟩ := Channel.create_eq_ok.1 made
            rfl
          have cleared : (device.setChannel name channel).clear =
              device.clear.setChannel name channel.clear := clear_setChannel channel
          rw [empty] at cleared
          exact congrArg Except.ok cleared.symm

/-- Nothing occupies a cleared device. -/
theorem lastStop_clear : device.clear.lastStop = 0 := by
  simp only [lastStop, clear, mapChannels, Registry.values_map]
  exact Chronology.foldl_max_eq_zero (by simp [Channel.clear, Timeline.lastStop, Ordered.empty])

end Device

namespace Experiment

variable {experiment new : Experiment} {device name : String} {default : Float}
  {command : Command}

@[simp] theorem contains_clear :
    experiment.clear.devices.contains name = experiment.devices.contains name := by
  simp [Registry.contains, clear, mapChannels]

theorem clear_setDevice (held : Device) :
    (experiment.setDevice held).clear = experiment.clear.setDevice held.clear :=
  congrArg (fun devices => { experiment.clear with devices })
    (Registry.map_insert (fun _ found => Device.clear found) ..)

theorem addDevice_clear (kind : DeviceKind) (line : ClockLine) :
    experiment.clear.addDevice name kind line = clear <$> experiment.addDevice name kind line := by
  have same : experiment.clear.addDevice name kind line =
      if experiment.devices.contains name || experiment.clock.name = name then .error (.nameTaken name)
      else .ok (experiment.clear.setDevice
        (.create name kind line experiment.settings.timeBase)) := by
    rw [addDevice, contains_clear]
    rfl
  rw [same, addDevice]
  split
  · rfl
  · exact congrArg Except.ok (clear_setDevice (.create name kind line _)).symm

/-- A device that is found on a cleared experiment is written back as the one that is found on the
experiment. -/
theorem setDevice_addChannel_clear (experiment : Experiment) (name : String) (default : Float)
    (found : Device) :
    (do return experiment.clear.setDevice (← found.clear.addChannel name default)) =
      clear <$> (do return experiment.setDevice (← found.addChannel name default) :
        Except Fault Experiment) := by
  rw [Device.addChannel_clear]
  cases found.addChannel name default with
  | error fault => rfl
  | ok added => exact congrArg Except.ok (clear_setDevice added).symm

theorem addChannel_clear :
    experiment.clear.addChannel device name default =
      clear <$> experiment.addChannel device name default := by
  unfold addChannel
  rw [device_clear]
  cases experiment.device device with
  | error fault => rfl
  | ok found => exact setDevice_addChannel_clear experiment name default found

theorem addTypedChannel_clear (kind : DeviceKind) :
    experiment.clear.addTypedChannel device kind name default =
      clear <$> experiment.addTypedChannel device kind name default := by
  unfold addTypedChannel
  rw [device_clear]
  cases experiment.device device with
  | error fault => rfl
  | ok found =>
      have written := setDevice_addChannel_clear experiment name default found
      by_cases same : found.kind = kind
      · simpa [same, bind, Except.bind] using written
      · simp [same, bind, Except.bind, Functor.map, Except.map, throw, throwThe,
          MonadExceptOf.throw]

/-- A registration commutes with clearing. -/
theorem perform_clear (registers : command.isRegistration = true) :
    Steps.Commutes clear (perform command) := by
  cases command with
  | addDevice name kind line => exact Recorder.commutes_atomic fun _ => addDevice_clear kind line
  | addAnalogChannel device id default =>
      exact Recorder.commutes_atomic fun _ => addTypedChannel_clear _
  | addDigitalChannel device port line default =>
      exact Recorder.commutes_atomic fun _ => addTypedChannel_clear _
  | addComposite device id gate =>
      exact Steps.commutes_forM _ fun part =>
        Recorder.commutes_atomic fun _ => addTypedChannel_clear _
  | addChannel device name default => exact Recorder.commutes_atomic fun _ => addChannel_clear
  | _ => cases registers

/-! ### One command -/

/-- A registration on a cleared experiment answers as on the experiment, and leaves what it leaves
there, cleared. -/
theorem after_clear (registers : command.isRegistration = true) :
    experiment.clear.after command =
      ((experiment.after command).1.clear, (experiment.after command).2) := by
  unfold after
  rw [perform_clear registers experiment]
  rcases (perform command).run experiment with ⟨result, reached⟩
  cases result <;> rfl

/-- A recording, also one that fails half-way, leaves an experiment that is cleared to the same. -/
theorem after_recording_clear (named : experiment.Named)
    (records : command.isRegistration = false) :
    (experiment.after command).1.clear = experiment.clear := by
  have kept : Steps.Keeps (fun reached => reached.Named ∧ reached.clear = experiment.clear)
      (perform command) := by
    refine perform_keeps And.left command (fun registers => ?_) fun start recording => ?_
    · rw [records] at registers
      cases registers
    · exact ⟨recording.keeps (fun _ => named_clear) start.1, recording.clear_eq.trans start.2⟩
  rw [after_fst]
  exact (kept experiment ⟨named, rfl⟩).2

/-! ### Sessions -/

/-- A session is cleared to what its registrations make of the cleared experiment. -/
theorem clear_session (named : experiment.Named) (commands : List Command) :
    (experiment.session commands).clear =
      experiment.clear.session (commands.filter Command.isRegistration) := by
  induction commands generalizing experiment with
  | nil => rfl
  | cons command rest ih =>
      have stillNamed : (experiment.after command).1.Named := by
        rw [after_fst]
        exact perform_named command experiment named
      have tail : (experiment.session (command :: rest)).clear =
          (experiment.after command).1.clear.session (rest.filter Command.isRegistration) :=
        ih stillNamed
      cases registers : command.isRegistration with
      | true =>
          have first : (experiment.clear.after command).1 = (experiment.after command).1.clear := by
            rw [after_clear registers]
          rw [tail, List.filter_cons_of_pos registers, ← first]
          rfl
      | false =>
          rw [tail, List.filter_cons_of_neg (by simp [registers]),
            after_recording_clear named registers]

/-- A new experiment has nothing to clear. -/
theorem clear_create {clockName : String} {minPeriod : Float} {settings : Settings}
    (made : create clockName minPeriod settings = .ok new) : new.clear = new := by
  obtain ⟨-, clock, created, rfl⟩ := create_eq_ok.1 made
  rw [clear, Pseudoclock.clear_create created]
  rfl

/-- A cleared experiment has no instruction and no wait. -/
theorem isEdited_clear : experiment.clear.isEdited = false := by
  simp [isEdited, clear, mapChannels, Registry.values_map, Device.isEdited, Device.mapChannels,
    Channel.isEdited, Channel.clear, Pseudoclock.clear, Ordered.empty]

/-- Nothing occupies a cleared experiment. -/
theorem lastStop_clear : experiment.clear.lastStop = 0 := by
  have waits : experiment.clear.clock.lastWait = 0 := rfl
  have devices : experiment.clear.devices.values = experiment.devices.values.map Device.clear :=
    Registry.values_map ..
  rw [lastStop, waits, devices]
  apply Chronology.foldl_max_eq_zero
  simp [Device.lastStop_clear]

/-- A call on an experiment: a command, or a compilation with or without a stop time. -/
inductive Call where
  | command (command : Command)
  | compile (stop : Option Float)

/-- What a call answers: the fault of a command, if it failed, or what a compilation gives. -/
inductive Answer where
  | recorded (fault : Option Fault)
  | compiled (result : Except Fault Compiled)

/-- The answers to calls that are made one after the other. -/
def answers (experiment : Experiment) : List Call → List Answer
  | [] => []
  | .command command :: rest =>
      .recorded (experiment.after command).2 :: answers (experiment.after command).1 rest
  | .compile stop :: rest => .compiled (experiment.compile stop) :: answers experiment rest

/-- After any session on a new experiment, of any commands and with any failures in between,
clearing leaves the very experiment that the registrations of the session make by themselves.  It
is not edited, nothing in it takes any time, and all further calls, commands and compilations,
answer as they do where nothing was ever recorded.  The recordings were of no account before the
clearing either: every further registration answers as it does without them. -/
theorem session_clear {clockName : String} {minPeriod : Float} {settings : Settings}
    (made : create clockName minPeriod settings = .ok new) (commands : List Command) :
    let cleared := new.session (commands ++ [.clear])
    let bare := new.session (commands.filter Command.isRegistration)
    cleared = bare ∧ cleared.isEdited = false ∧ cleared.lastStop = 0 ∧
      (∀ calls, cleared.answers calls = bare.answers calls) ∧
      ∀ command, command.isRegistration = true →
        ((new.session commands).after command).2 = (bare.after command).2 := by
  intro cleared bare
  have isCleared : cleared = (new.session commands).clear := by
    simp only [cleared, session, List.foldl_append, List.foldl_cons, List.foldl_nil]
    rfl
  have same : cleared = bare := by
    rw [isCleared, clear_session (named_create made), clear_create made]
  refine ⟨same, ?_, ?_, fun calls => by rw [same], fun command registers => ?_⟩
  · rw [isCleared]
    exact isEdited_clear
  · rw [isCleared]
    exact lastStop_clear
  · rw [← same, isCleared, after_clear registers]

/-- A session with a ramp, a wait and refused commands is forgotten up to its four registrations. -/
theorem mixedSession_clear : ∃ new, create "clock" 1e-7 {} = .ok new ∧
    (new.session mixedSession).isEdited = true ∧ (new.session mixedSession).lastStop = 3000 ∧
    (new.session (mixedSession ++ [.clear])).lastStop = 0 ∧
    new.session (mixedSession ++ [.clear]) =
      new.session [.addDevice "volts" .analogCard .fast, .addAnalogChannel "volts" 0 0,
        .addDevice "gates" .digitalCard .fast, .addDigitalChannel "gates" 0 0 0] := by
  have run : (create "clock" 1e-7 {}).toOption.map (fun new =>
      ((new.session mixedSession).isEdited, (new.session mixedSession).lastStop)) =
        some (true, 3000) := by decide +kernel
  obtain ⟨new, made⟩ := Checks.isOk_iff.1 (by decide +kernel :
    (create "clock" 1e-7 {}).isOk = true)
  rw [made] at run
  obtain ⟨edited, ends⟩ := Prod.mk.inj (Option.some.inj run)
  obtain ⟨same, -, empty, -, -⟩ := session_clear made mixedSession
  exact ⟨new, made, edited, ends, empty, same⟩

end Experiment

end Metronome
