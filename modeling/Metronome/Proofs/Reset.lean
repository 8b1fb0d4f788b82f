/-
Module: Metronome.Proofs.Reset
Purpose: A reset puts one constant on every channel, its own default value at a common position.
Trusted boundary: none
Main exports:
  Channel.atDefault, Experiment.ResetAt, Experiment.resetAt_of_reset, Experiment.reset_none,
  Experiment.session_reset
-/
import Metronome.Proofs.FinalValues
import Metronome.Proofs.Registered
import Metronome.Proofs.RoundTrip
import Metronome.Proofs.Soundness

/-!
A reset makes the placements of all channels first and deals them out afterwards by their order
alone, without a look at where an insertion is refused.  `reset_eq_ok` says that the order is right.
What is left to see is that all channels read the same position off the time of the reset, that no
insertion meets a taken start, and that the time that is chosen without a request lies past
everything that is recorded.
-/

namespace Metronome

theorem Ordered.place_last {α : Type} {position : α → Nat} {item : α} {items : List α}
    (later : ∀ present ∈ items, position present < position item) :
    place position item items = items ++ [item] := by
  induction items with
  | nil => rfl
  | cons first rest ih =>
      obtain ⟨firstLess, restLess⟩ := List.forall_mem_cons.1 later
      rw [place, if_neg (Nat.lt_asymm firstLess), if_neg (Nat.ne_of_gt firstLess), ih restLess,
        List.cons_append]

/-- An item that is inserted after all others comes last. -/
theorem Ordered.items_insert_last {α : Type} {position : α → Nat} {ordered : Ordered position}
    {item : α} (later : ∀ present ∈ ordered.items, position present < position item) :
    (ordered.insert item).items = ordered.items ++ [item] :=
  place_last later

namespace Channel

/-- The constant of a channel's own default value at a position. -/
def atDefault (channel : Channel) (position : Nat) : Placement :=
  ⟨position, none, .constant channel.default, rfl⟩

variable {channel : Channel} {t : Float} {position : Nat}

/-- A default value that is admitted becomes a constant at the position of the time, where no other
instruction starts. -/
theorem place_default {added : Placement}
    (placed : channel.place (.constant channel.default) t none = .ok added) :
    TimeGrid.position t channel.timeBase channel.output = .ok added.start ∧
      added = channel.atDefault added.start ∧
      ∀ present ∈ channel.timeline.items, present.start ≠ added.start := by
  have admits := place_eq_ok.1 placed
  refine ⟨admits.starts, ?_, Timeline.starts_ne admits.free⟩
  have ramp := (admits.constant rfl).1
  have holds := admits.holds
  obtain ⟨start, span, instruction, fits⟩ := added
  cases ramp
  cases holds
  rfl

/-- A channel that keeps its rules admits its default value past all its instructions. -/
theorem place_default_past (sound : channel.Sound)
    (starts : TimeGrid.position t channel.timeBase channel.output = .ok position)
    (past : ∀ present ∈ channel.timeline.items, present.stop < position) :
    channel.place (.constant channel.default) t none = .ok (channel.atDefault position) := by
  refine place_eq_ok.2 ⟨starts, rfl, fun _ => ⟨rfl, ?_⟩, nofun, ?_⟩
  · exact checkValue_eq_ok.2 ⟨sound.default, fun digital => (sound.digital digital).1⟩
  · refine (Timeline.overlapping?_eq_none_iff sound.apart).2 fun present member => ?_
    have ended := past present member
    have begun := present.start_le_stop
    have at_position : (channel.atDefault position).start = position := rfl
    refine ⟨?_, fun _ => ?_, fun after => ?_⟩
    · omega
    · omega
    · omega

end Channel

namespace Experiment

variable {before after experiment : Experiment} {settings : Settings}

/-- What a reset at a position makes of an experiment.  Every channel gains exactly one instruction,
the constant of its own default value at the position, and nothing else changes. -/
structure ResetAt (before : Experiment) (position : Nat) (after : Experiment) : Prop where
  after_eq : after = before.mapEach fun _ _ channel => channel.insert (channel.atDefault position)
  isNew : ∀ channel ∈ before.channels, channel.atDefault position ∉ channel.timeline.items
  gains : ∀ channel ∈ before.channels, ∀ placement,
    placement ∈ (channel.insert (channel.atDefault position)).timeline.items ↔
      placement = channel.atDefault position ∨ placement ∈ channel.timeline.items

/-- If every channel admits its default value at one position, a reset happens there. -/
theorem reset_of_place {t : Option Float} {position : Nat}
    (each : ∀ channel ∈ before.channels,
      channel.place (.constant channel.default) (before.resetTime t) none =
        .ok (channel.atDefault position)) :
    ∃ after, before.reset t = .ok after ∧ before.ResetAt position after := by
  have free : ∀ channel ∈ before.channels, ∀ present ∈ channel.timeline.items,
      present.start ≠ position := fun channel member =>
    (Channel.place_default (each channel member)).2.2
  refine ⟨_, reset_eq_ok.2 ⟨fun channel member => ⟨_, each channel member⟩, rfl⟩, ?_, ?_, ?_⟩
  · refine mapEach_congr fun device name channel lookup => ?_
    rw [resetPlacement, each channel (mem_channels_iff.2 ⟨device, name, lookup⟩)]
    rfl
  · exact fun channel member taken => free channel member _ taken rfl
  · exact fun channel member placement => Ordered.mem_insert_iff (free channel member)

/-- A reset that succeeds happens at one position, since all channels have the time base of the
settings. -/
theorem resetAt_of_reset (registered : before.Registered settings) {t : Option Float}
    (made : before.reset t = .ok after) : ∃ position, before.ResetAt position after := by
  have admitted := (reset_eq_ok.1 made).1
  have common : ∃ position, ∀ channel ∈ before.channels,
      channel.place (.constant channel.default) (before.resetTime t) none =
        .ok (channel.atDefault position) := by
    cases all : before.channels with
    | nil => exact ⟨0, fun _ member => absurd member List.not_mem_nil⟩
    | cons first rest =>
        rw [← all]
        have starts : ∀ channel ∈ before.channels, ∃ added,
            channel.place (.constant channel.default) (before.resetTime t) none = .ok added ∧
              TimeGrid.position (before.resetTime t) settings.timeBase channel.output =
                .ok added.start ∧ added = channel.atDefault added.start := by
          intro channel member
          obtain ⟨added, placed⟩ := admitted channel member
          obtain ⟨device, name, lookup⟩ := mem_channels_iff.1 member
          obtain ⟨position, same, -⟩ := Channel.place_default placed
          rw [registered.timeBase lookup] at position
          exact ⟨added, placed, position, same⟩
        obtain ⟨lead, -, leads, -⟩ := starts first (by simp [all])
        refine ⟨lead.start, fun channel member => ?_⟩
        obtain ⟨added, placed, position, same⟩ := starts channel member
        have equal : added.start = lead.start :=
          Except.ok.inj (position.symm.trans (TimeGrid.position_output leads channel.output))
        rw [placed, same, equal]
  obtain ⟨position, each⟩ := common
  obtain ⟨other, again, resetAt⟩ := reset_of_place each
  cases made.symm.trans again
  exact ⟨position, resetAt⟩

/-- All instructions of a channel end by the last position. -/
theorem stop_le_lastStop {channel : Channel} (member : channel ∈ experiment.channels)
    {placement : Placement} (placed : placement ∈ channel.timeline.items) :
    placement.stop ≤ experiment.lastStop := by
  obtain ⟨found, registered, held⟩ := List.mem_flatMap.1 member
  have seen : channel.toOutput found.line ∈ experiment.outputs :=
    List.mem_flatMap.2 ⟨found, registered, List.mem_map.2 ⟨channel, held, rfl⟩⟩
  exact experiment.le_lastStop.1 _ seen placement placed

/-- One minimum period after everything that is recorded, every channel admits its default value. -/
theorem reset_none (registered : before.Registered settings) (sound : before.Sound)
    (positive : 1 ≤ before.clock.minPositions)
    (returns : TimeGrid.Returns settings.timeBase (before.lastStop + before.clock.minPositions)) :
    ∃ after, before.reset none = .ok after ∧
      before.ResetAt (before.lastStop + before.clock.minPositions) after := by
  refine reset_of_place fun channel member => ?_
  obtain ⟨device, name, lookup⟩ := mem_channels_iff.1 member
  refine Channel.place_default_past (sound.channels channel member) ?_ fun present held => ?_
  · rw [registered.timeBase lookup, resetTime, registered.settings]
    exact returns channel.output
  · have := stop_le_lastStop member held
    omega

/-- After a reset past everything that is recorded, each channel ends with its default value. -/
theorem ResetAt.finalValue {position : Nat} (resetAt : before.ResetAt position after)
    (past : before.lastStop < position) {device name : String} {channel : Channel}
    (lookup : after.channel device name = .ok channel) (line : ClockLine) (timeBase : Float) :
    (channel.toOutput line).finalValue timeBase = channel.default := by
  rw [resetAt.after_eq] at lookup
  obtain ⟨old, held, rfl⟩ := channel_mapEach_eq_ok.1 lookup
  have member := mem_channels_iff.2 ⟨device, name, held⟩
  have later : ∀ present ∈ old.timeline.items, present.start < (old.atDefault position).start := by
    intro present placed
    have begun := present.start_le_stop
    have ended := stop_le_lastStop member placed
    have there : (old.atDefault position).start = position := rfl
    omega
  have items : (old.insert (old.atDefault position)).timeline.items =
      old.timeline.items ++ [old.atDefault position] := Ordered.items_insert_last later
  rw [Output.finalValue, Channel.toOutput, items, List.getLast?_append]
  rfl

/-- After any session, a reset that succeeds puts exactly one instruction on every channel of every
device, the constant of the channel's own default value, all at one position, and changes nothing
else.  A reset without a time succeeds whenever the position one minimum period after everything
that is recorded returns from its seconds, and it happens there.  If what it leaves compiles without
a stop time, the last sample of every channel is the channel's default value. -/
theorem session_reset {clockName : String} {minPeriod : Float} {new : Experiment}
    (made : create clockName minPeriod settings = .ok new) (commands : List Command) :
    let before := new.session commands
    let next := before.lastStop + before.clock.minPositions
    (∀ t after, before.reset t = .ok after → ∃ position, before.ResetAt position after) ∧
    (TimeGrid.Returns settings.timeBase next →
      ∃ after, before.reset none = .ok after ∧ before.ResetAt next after ∧
        ∀ compiled, after.compile none = .ok compiled →
          TimeGrid.ExactUpTo settings.timeBase (after.lastStop + after.clock.minPositions) →
          ∀ device name found channel, after.device device = .ok found →
            found.channel name = .ok channel →
            ∃ sampled values, compiled.device device = .ok sampled ∧
              sampled.channel name = .ok values ∧ values.getLast? = some channel.default) := by
  intro before next
  have registered : before.Registered settings := session_registered made commands
  have sound : before.Sound := (session_rules made commands).2
  have positive : 1 ≤ before.clock.minPositions := session_minPositions made commands
  refine ⟨fun t after reset => resetAt_of_reset registered reset, fun returns => ?_⟩
  obtain ⟨after, reset, resetAt⟩ := reset_none registered sound positive returns
  refine ⟨after, reset, resetAt,
    fun compiled compiles faithful device name found channel lookup held => ?_⟩
  have sameClock : after.clock = before.clock := by
    rw [resetAt.after_eq]
    rfl
  have sameSettings : after.settings = settings := by
    rw [resetAt.after_eq]
    exact registered.settings
  have past : before.lastStop < next := Nat.lt_add_of_pos_right positive
  rw [← sameSettings] at faithful
  rw [← sameClock] at positive
  obtain ⟨sampled, values, sampledIn, valuesIn, last⟩ :=
    compile_getLast? positive faithful compiles lookup held
  refine ⟨sampled, values, sampledIn, valuesIn, ?_⟩
  rw [last, resetAt.finalValue past (channel_eq_ok.2 ⟨found, lookup, held⟩)]

/-- A session with three channels with different defaults: a ramp on the first, a level on the
third, and a wait as the last of all. -/
def restSession : List Command :=
  [.addDevice "volts" .analogCard .fast, .addAnalogChannel "volts" 0 1,
    .addAnalogChannel "volts" 1 2, .addDevice "gates" .digitalCard .slow,
    .addDigitalChannel "gates" 0 0 0, .linear "volts" "ao0" 0 ⟨2e-8, 1e8⟩ 0 5,
    .level "gates" "port0/line0" true 1e-8, .wait "trigger" 4e-8 none]

/-- The reset of the session comes ten positions after the wait, and the second channel ends with
its own default value, two. -/
theorem restSession_reset : ∃ new after compiled sampled values last,
    create "clock" 1e-8 {} = .ok new ∧ (new.session restSession).reset none = .ok after ∧
      (new.session restSession).ResetAt 50 after ∧ after.compile none = .ok compiled ∧
      compiled.device "volts" = .ok sampled ∧ sampled.channel "ao1" = .ok values ∧
      values.getLast? = some last ∧ (last == 2) = true := by
  have run : (do
      let new ← create "clock" 1e-8 {}
      let before := new.session restSession
      let next := before.lastStop + before.clock.minPositions
      let returned ← TimeGrid.position (TimeGrid.seconds next ({} : Settings).timeBase)
        ({} : Settings).timeBase ""
      let after ← before.reset none
      let _ ← after.compile none
      let channel ← after.channel "volts" "ao1"
      return (next, returned, decide (TimeGrid.ExactUpTo ({} : Settings).timeBase
        (after.lastStop + after.clock.minPositions)), channel.default == 2) :
        Except Fault (Nat × Nat × Bool × Bool)).toOption = some (50, 50, true, true) := by
    decide +kernel
  obtain ⟨new, made, run⟩ := Checks.bind_eq_ok.1 (Checks.toOption_eq_some_iff.1 run)
  obtain ⟨returned, returns, run⟩ := Checks.bind_eq_ok.1 run
  obtain ⟨after, reset, run⟩ := Checks.bind_eq_ok.1 run
  obtain ⟨compiled, compiles, run⟩ := Checks.bind_eq_ok.1 run
  obtain ⟨channel, lookup, run⟩ := Checks.bind_eq_ok.1 run
  obtain ⟨isNext, rest⟩ := Prod.mk.inj (Except.ok.inj run)
  obtain ⟨isReturned, decided⟩ := Prod.mk.inj rest
  obtain ⟨exact, isTwo⟩ := Prod.mk.inj decided
  rw [isReturned, ← isNext] at returns
  obtain ⟨found, registered, held⟩ := channel_eq_ok.1 lookup
  obtain ⟨other, again, resetAt, ends⟩ :=
    (session_reset made restSession).2 (TimeGrid.returns_of returns)
  cases reset.symm.trans again
  obtain ⟨sampled, values, sampledIn, valuesIn, last⟩ :=
    ends compiled compiles (of_decide_eq_true exact) "volts" "ao1" found channel registered held
  rw [isNext] at resetAt
  exact ⟨new, after, compiled, sampled, values, _, made, reset, resetAt, compiles, sampledIn,
    valuesIn, last, isTwo⟩

end Experiment

end Metronome
