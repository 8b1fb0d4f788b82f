/-
Module: Metronome.Proofs.Soundness
Purpose: After every session of commands, with any failures in between, the timelines and the waits
  keep their rules.
Trusted boundary: none
Main exports:
  Channel.Sound, Pseudoclock.Sound, Experiment.Sound, Channel.Sound.insert,
  Experiment.perform_sound, Experiment.session_rules, Experiment.session_sound
-/
import Metronome.Proofs.Comparison
import Metronome.Proofs.Placing
import Metronome.Proofs.Session

/-!
A channel decides by itself what it takes, so that the rules of a timeline are an invariant of each
channel: an empty one keeps them, and one that takes a placement it admits keeps them still.  The
rules of the waits are an invariant of the clock in the same way.
-/

namespace Metronome

/-- The rules of a channel's timeline. -/
structure Channel.Sound (channel : Channel) : Prop where
  /-- Starts increase strictly, and each placement ends before the later ones start, or there. -/
  apart : channel.timeline.Apart
  onGrid : ∀ placement ∈ channel.timeline.items,
    placement.start ≤ TimeGrid.last ∧ placement.stop ≤ TimeGrid.last
  ramps : ∀ placement ∈ channel.timeline.items, ∀ span, placement.ramp = some span →
    placement.start < span.stop ∧ 1 ≤ span.period ∧ placement.instruction.shape ≠ .constant
  constants : ∀ placement ∈ channel.timeline.items, placement.ramp = none →
    placement.instruction.shape = .constant ∧ placement.instruction.level.isFinite = true
  default : channel.default.isFinite = true
  digital : channel.kind = .digital → (channel.default == 0 ∨ channel.default == 1) ∧
    ∀ placement ∈ channel.timeline.items, placement.ramp = none ∧
      (placement.instruction.level == 0 ∨ placement.instruction.level == 1)

/-- The rules of the waits: they lie on the grid after its start, and every timeout is positive. -/
def Pseudoclock.Sound (clock : Pseudoclock) : Prop :=
  ∀ wait ∈ clock.waits.items, 1 ≤ wait.position ∧ wait.position ≤ TimeGrid.last ∧
    ∀ timeout, wait.timeout = some timeout → timeout.isFinite = true ∧ 0 < timeout

/-- The rules of an experiment: those of its clock and of each of its channels. -/
structure Experiment.Sound (experiment : Experiment) : Prop where
  clock : experiment.clock.Sound
  channels : ∀ channel ∈ experiment.channels, channel.Sound

/-! ### One channel -/

namespace Channel

variable {channel : Channel} {instruction : Instruction} {t : Float}
  {timing : Option RampTiming} {added : Placement}

/-- A channel without instructions keeps the rules if it can hold its default value. -/
theorem Sound.of_empty (checked : channel.checkValue channel.default t = .ok ())
    (empty : channel.timeline = .empty) : channel.Sound := by
  obtain ⟨finite, level⟩ := checkValue_eq_ok.1 checked
  have noItems : channel.timeline.items = [] := by rw [empty]; rfl
  constructor
  · rw [Timeline.Apart, noItems]
    exact List.Pairwise.nil
  · simp [noItems]
  · simp [noItems]
  · simp [noItems]
  · exact finite
  · intro digital
    exact ⟨level digital, by simp [noItems]⟩

theorem Sound.clear (sound : channel.Sound) : channel.clear.Sound :=
  .of_empty (t := 0)
    (checkValue_eq_ok.2 ⟨sound.default, fun digital => (sound.digital digital).1⟩) rfl

/-- What a channel admits lies on the grid. -/
theorem Admits.onGrid (admits : channel.Admits instruction t timing added) :
    added.start ≤ TimeGrid.last ∧ added.stop ≤ TimeGrid.last := by
  have start := TimeGrid.position_le_last admits.starts
  refine ⟨start, ?_⟩
  cases timing with
  | none =>
      rw [Placement.stop, (admits.constant rfl).1]
      exact start
  | some given =>
      obtain ⟨span, ramp, made⟩ := admits.ramp rfl
      rw [Placement.stop, ramp]
      exact (rampSpan_eq_ok made).2

/-- A placement without a domain that a channel admits has a level that the channel can hold. -/
theorem Admits.level (admits : channel.Admits instruction t timing added)
    (noRamp : added.ramp = none) : channel.checkValue added.instruction.level t = .ok () := by
  cases timing with
  | none =>
      rw [admits.holds]
      exact (admits.constant rfl).2
  | some given =>
      obtain ⟨span, ramp, -⟩ := admits.ramp rfl
      rw [noRamp] at ramp
      cases ramp

/-- A digital channel admits no ramp. -/
theorem Admits.noRamp (admits : channel.Admits instruction t timing added)
    (digital : channel.kind = .digital) : added.ramp = none := by
  cases timing with
  | none => exact (admits.constant rfl).1
  | some given =>
      obtain ⟨span, -, made⟩ := admits.ramp rfl
      exact absurd digital (rampSpan_eq_ok made).1

/-- A channel that takes a placement it admits keeps the rules. -/
theorem Sound.insert (sound : channel.Sound) (admits : channel.Admits instruction t timing added) :
    (channel.insert added).Sound := by
  have each : ∀ {rule : Placement → Prop}, rule added →
      (∀ placement ∈ channel.timeline.items, rule placement) →
      ∀ placement ∈ (channel.insert added).timeline.items, rule placement := by
    intro rule addedKeeps oldKeep placement member
    rcases Ordered.mem_insert member with rfl | old
    · exact addedKeeps
    · exact oldKeep placement old
  refine ⟨Timeline.insert_apart sound.apart admits.free, each admits.onGrid sound.onGrid,
    each ?_ sound.ramps, each ?_ sound.constants, sound.default, fun digital => ?_⟩
  · intro span ramp
    have fits := added.fits
    rw [ramp] at fits
    exact ⟨fits.2.1, fits.2.2, by simpa [Instruction.isRamp] using fits.1⟩
  · intro noRamp
    have fits := added.fits
    rw [noRamp] at fits
    exact ⟨by simpa [RampSpan.Fits, Instruction.isRamp] using fits,
      (checkValue_eq_ok.1 (admits.level noRamp)).1⟩
  · obtain ⟨default, levels⟩ := sound.digital digital
    have noRamp := admits.noRamp digital
    exact ⟨default, each ⟨noRamp, (checkValue_eq_ok.1 (admits.level noRamp)).2 digital⟩ levels⟩

theorem Sound.extends {changed : Channel} (sound : channel.Sound)
    (extended : channel.Extends changed) : changed.Sound := by
  rcases extended with rfl | ⟨instruction, t, timing, added, placed, rfl⟩
  · exact sound
  · exact sound.insert (place_eq_ok.1 placed)

end Channel

/-! ### The clock -/

/-- A new clock has no waits. -/
theorem Pseudoclock.sound_create {name : String} {minPeriod timeBase : Float}
    {clock : Pseudoclock} (made : create name minPeriod timeBase = .ok clock) : clock.Sound := by
  unfold create at made
  split at made
  · split at made <;> cases made
    exact fun wait member => absurd member List.not_mem_nil
  · cases made

/-- A wait that is added keeps the rules. -/
theorem Pseudoclock.Sound.addWait {clock changed : Pseudoclock} {label : String} {t : Float}
    {timeout : Option Float} (sound : clock.Sound)
    (admitted : clock.addWait label t timeout = .ok changed) : changed.Sound := by
  obtain ⟨position, found, afterStart, positive, -, rfl⟩ := addWait_eq_ok.1 admitted
  intro wait member
  rcases Ordered.mem_insert member with rfl | old
  · refine ⟨Nat.one_le_iff_ne_zero.2 afterStart, TimeGrid.position_le_last found,
      fun limit given => ?_⟩
    obtain ⟨finite, above⟩ := positive limit given
    exact ⟨finite, Number.pos_of_not_nonpos finite above⟩
  · exact sound wait old

/-! ### Sessions -/

namespace Experiment

variable {before after experiment : Experiment}

theorem Recording.sound (recording : Recording before after) (sound : before.Sound) :
    after.Sound := by
  cases recording with
  | wait admitted => exact ⟨sound.clock.addWait admitted, sound.channels⟩
  | instructions each =>
      refine ⟨sound.clock, fun channel member => ?_⟩
      obtain ⟨device, name, found⟩ := mem_channels_iff.1 member
      obtain ⟨old, lookup, rfl⟩ := channel_mapEach_eq_ok.1 found
      exact (sound.channels old (mem_channels_iff.2 ⟨device, name, lookup⟩)).extends (each lookup)
  | clear =>
      refine ⟨fun wait member => (by cases member), fun channel member => ?_⟩
      obtain ⟨device, name, found⟩ := mem_channels_iff.1 member
      rw [channel_clear, Checks.map_eq_ok] at found
      obtain ⟨old, lookup, rfl⟩ := found
      exact (sound.channels old (mem_channels_iff.2 ⟨device, name, lookup⟩)).clear

theorem Registration.sound (registration : Registration before after) (named : before.Named)
    (sound : before.Sound) : after.Sound := by
  cases registration with
  | device isNew =>
      refine ⟨sound.clock, fun channel member => ?_⟩
      obtain ⟨device, name, found⟩ := mem_channels_iff.1 member
      exact sound.channels channel
        (mem_channels_iff.2 ⟨device, name, (channel_addDevice isNew).1 found⟩)
  | channel lookup admitted isNew created =>
      refine ⟨sound.clock, fun channel member => ?_⟩
      obtain ⟨device, name, found⟩ := mem_channels_iff.1 member
      rcases (channel_addChannel named lookup isNew).1 found with ⟨-, rfl⟩ | old
      · obtain ⟨checked, rfl⟩ := Channel.create_eq_ok.1 created
        exact .of_empty checked rfl
      · exact sound.channels channel (mem_channels_iff.2 ⟨device, name, old⟩)

/-- Every command keeps the rules, also where it fails. -/
theorem perform_sound (command : Command) :
    Steps.Keeps (fun experiment => experiment.Named ∧ experiment.Sound) (perform command) :=
  perform_keeps And.left command
    (fun _ _ _ start registration =>
      ⟨registration.named start.1, registration.sound start.1 start.2⟩)
    fun start recording =>
      ⟨recording.keeps (fun _ => named_clear) start.1, recording.sound start.2⟩

/-- A new experiment keeps the rules, having no waits and no channels. -/
theorem sound_create {clockName : String} {minPeriod : Float} {settings : Settings}
    (made : create clockName minPeriod settings = .ok experiment) : experiment.Sound := by
  obtain ⟨-, clock, created, rfl⟩ := create_eq_ok.1 made
  exact ⟨Pseudoclock.sound_create created, fun channel member => absurd member List.not_mem_nil⟩

/-- What recording can rely on after a session: names and keys agree, and the rules are kept. -/
theorem session_rules {clockName : String} {minPeriod : Float} {settings : Settings}
    (made : create clockName minPeriod settings = .ok experiment) (commands : List Command) :
    (experiment.session commands).Named ∧ (experiment.session commands).Sound :=
  session_keeps (fun command _ => perform_sound command) ⟨named_create made, sound_create made⟩

/-- After every session on a new experiment, of any commands and with any failures in between, every
timeline and every wait keeps the rules. -/
theorem session_sound {clockName : String} {minPeriod : Float} {settings : Settings}
    (made : create clockName minPeriod settings = .ok experiment) (commands : List Command) :
    (experiment.session commands).Sound :=
  (session_rules made commands).2

/-- A session with a ramp, a wait and constants on two cards, in which a second instruction at a
taken start and the second edge of a pulse are refused. -/
def mixedSession : List Command :=
  [.addDevice "volts" .analogCard .fast, .addAnalogChannel "volts" 0 0,
    .addDevice "gates" .digitalCard .fast, .addDigitalChannel "gates" 0 0 0,
    .linear "volts" "ao0" 0 ⟨1e-6, 1e6⟩ 0 1, .constant "volts" "ao0" 2e-6 3,
    .constant "volts" "ao0" 2e-6 4, .level "gates" "port0/line0" true 3e-6,
    .pulse "gates" "port0/line0" true 1e-6 2e-6, .wait "trigger" 1e-6 (some 1)]

/-- The session leaves two instructions on each channel, which keep the rules. -/
theorem mixedSession_sound : ∃ new, create "clock" 1e-7 {} = .ok new ∧
    (new.session mixedSession).channels.map (fun channel => channel.timeline.items.length) =
      [2, 2] ∧ (new.session mixedSession).Sound := by
  have counts : (create "clock" 1e-7 {}).toOption.map (fun new =>
      (new.session mixedSession).channels.map fun channel => channel.timeline.items.length) =
        some [2, 2] := by decide +kernel
  obtain ⟨new, made⟩ := Checks.isOk_iff.1 (by decide +kernel :
    (create "clock" 1e-7 {}).isOk = true)
  rw [made] at counts
  exact ⟨new, made, Option.some.inj counts, session_sound made mixedSession⟩

end Experiment
end Metronome
