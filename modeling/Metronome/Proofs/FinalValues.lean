/-
Module: Metronome.Proofs.FinalValues
Purpose: Without a stop time every output ends with the value that is requested last, and nothing is
  refused for lying past the stop.
Trusted boundary: none
Main exports:
  Demand.Bounded.exists_closing, Output.finalValue, Output.valueAt_of_past, Output.exists_tick_past,
  Output.getLast?_samples, Experiment.le_lastStop, Fault.concernsStop,
  Experiment.compile_inTime, Experiment.compile_final_values
-/
import Metronome.Proofs.Failures
import Metronome.Proofs.RampEnd
import Metronome.Proofs.Session

/-!
The last boundary, or the closing tick of the longest ramp that is active there, lies at or after
the end of everything else, since every ramp has started by the last boundary.  So the fast line
has a tick after the end of every output.  The slow line need not see that tick, but its outputs
have only constants, which start at boundaries.
-/

namespace Metronome

/-! ### The last tick -/

/-- If every ramp ends before the stop, a tick before the stop is asked for that no boundary and no
end of a ramp comes after. -/
theorem Demand.Bounded.exists_closing {demand : Demand} {stop : Nat}
    (bounded : demand.Bounded stop) (early : ∀ window ∈ demand.windows, window.stop < stop) :
    ∃ position, position < stop ∧ demand.TicksAt position ∧
      (∀ boundary ∈ demand.boundaries, boundary ≤ position) ∧
      ∀ window ∈ demand.windows, window.stop ≤ position := by
  obtain ⟨isBoundary, -, greatest⟩ := Demand.latest_spec bounded.zero stop
  generalize demand.latest stop = last at isBoundary greatest
  have noLater : ∀ boundary ∈ demand.boundaries, boundary ≤ last := fun boundary member =>
    greatest boundary member (Nat.le_of_lt (bounded.before boundary member))
  have latest : ∀ position, last ≤ position → demand.latest position = last :=
    fun position after => Demand.latest_eq isBoundary after fun boundary member _ =>
      noLater boundary member
  have active : ∀ position, last ≤ position → ∀ window, window ∈ demand.active position ↔
      window ∈ demand.windows ∧ last < window.stop := by
    intro position after window
    rw [Demand.mem_active, latest position after]
    exact and_congr_right fun member =>
      and_iff_right (noLater _ (bounded.starts window member))
  -- Every ramp has started by the last boundary, so one that ends later is active there.
  cases longest : ((demand.active last).map Window.stop).max? with
  | none =>
      rw [List.max?_eq_none_iff, List.map_eq_nil_iff] at longest
      refine ⟨last, bounded.before last isBoundary, Or.inl isBoundary, noLater,
        fun window member => Nat.le_of_not_lt fun goesOn => ?_⟩
      have inActive := (active last (Nat.le_refl _) window).2 ⟨member, goesOn⟩
      rw [longest] at inActive
      exact List.not_mem_nil inActive
  | some closing =>
      obtain ⟨isStop, bound⟩ := List.max?_eq_some_iff.1 longest
      obtain ⟨window, inActive, rfl⟩ := List.mem_map.1 isStop
      obtain ⟨member, goesOn⟩ := (active last (Nat.le_refl _) window).1 inActive
      have after := Nat.le_of_lt goesOn
      have ends : ∀ other ∈ demand.windows, other.stop ≤ window.stop := by
        intro other otherIn
        by_cases otherGoesOn : last < other.stop
        · have otherActive := (active last (Nat.le_refl _) other).2 ⟨otherIn, otherGoesOn⟩
          exact bound other.stop (List.mem_map_of_mem otherActive)
        · omega
      refine ⟨window.stop, early window member, Or.inr (Or.inr
        ⟨⟨window, (active _ after window).2 ⟨member, goesOn⟩, rfl⟩, fun other otherActive =>
          ends other ((active _ after other).1 otherActive).1⟩),
        fun boundary boundaryIn => Nat.le_trans (noLater boundary boundaryIn) after, ends⟩

/-- The value that an instruction leaves behind: the level of a constant, and of a ramp the value at
the end of its domain. -/
def Placement.finalValue (placement : Placement) (timeBase : Float) : Float :=
  match placement.ramp with
  | none => placement.instruction.level
  | some span => placement.instruction.evaluate 1
      (TimeGrid.seconds (span.stop - placement.start) timeBase)

theorem Placement.stop_of_ramp {placement : Placement} {span : RampSpan}
    (ramp : placement.ramp = some span) : placement.stop = span.stop := by
  rw [stop, ramp]

theorem Placement.stop_of_constant {placement : Placement} (constant : placement.ramp = none) :
    placement.stop = placement.start := by
  rw [stop, constant]

namespace Output

/-- The value that is requested last: what the last instruction leaves behind, or the default
without instructions. -/
def finalValue (output : Output) (timeBase : Float) : Float :=
  match output.timeline.items.getLast? with
  | none => output.default
  | some last => last.finalValue timeBase

/-- Once everything is over, a timeline asks for the value that is requested last. -/
theorem valueAt_of_past {output : Output} {position : Nat}
    (past : ∀ placement ∈ output.timeline.items, placement.stop ≤ position)
    (small : position < 2 ^ 53) (timeBase : Float) :
    output.valueAt timeBase position = output.finalValue timeBase := by
  rw [finalValue]
  cases isLast : output.timeline.items.getLast? with
  | none =>
      rw [List.getLast?_eq_none_iff] at isLast
      exact valueAt_of_before fun placement member => by
        rw [isLast] at member
        exact absurd member List.not_mem_nil
  | some last =>
      have member := List.mem_of_getLast? isLast
      have ended := past last member
      have chronological := output.timeline.increasing.imp fun less => Nat.le_of_lt less
      rw [valueAt_of_latest member (Nat.le_trans last.start_le_stop ended) fun other otherIn _ =>
        Chronology.le_of_getLast? chronological isLast otherIn]
      dsimp only
      rw [Placement.finalValue]
      cases ramp : last.ramp with
      | none => exact Placement.value_of_constant ramp
      | some span =>
          rw [Placement.stop_of_ramp ramp] at ended
          exact Placement.value_of_stop_le ramp ended small timeBase

variable {clock : Pseudoclock} {outputs : List Output} {stop : Nat} {settings : Settings}
  {program : Program} {output : Output} {values : List Float}

/-- If everything ends before the stop, the line of an output ticks at or after the end of each of
its instructions. -/
theorem exists_tick_past (faithful : TimeGrid.ExactUpTo settings.timeBase stop)
    (made : clock.program outputs stop settings = .ok program)
    (early : ∀ output ∈ outputs, ∀ placement ∈ output.timeline.items, placement.stop < stop)
    (member : output ∈ outputs) {placement : Placement}
    (placed : placement ∈ output.timeline.items) :
    ∃ tick ∈ program.lineTicks output.line, placement.stop ≤ tick.position := by
  obtain ⟨timely, -, -, -⟩ := Pseudoclock.program_eq_ok.1 made
  -- A constant may stand on the slow line, of which only the boundaries are known; a ramp stands on
  -- the fast one, which sees the closing tick as well.
  cases ramp : placement.ramp with
  | none =>
      obtain ⟨tick, onLine, starts⟩ := Pseudoclock.exists_lineTick faithful made output.line
        (Demand.mem_boundaries_of.2 (Or.inr (Or.inl ⟨output, member, placement, placed, rfl⟩)))
      rw [Placement.stop_of_constant ramp]
      exact ⟨tick, onLine, Nat.le_of_eq starts.symm⟩
  | some span =>
      have windowsEarly : ∀ window ∈ (Demand.of clock outputs).windows, window.stop < stop := by
        intro window windowIn
        obtain ⟨other, otherIn, held, heldIn, span, ramp, rfl⟩ := Demand.mem_windows_of.1 windowIn
        exact Placement.stop_of_ramp ramp ▸ early other otherIn held heldIn
      obtain ⟨position, inTime, asked, -, ended⟩ := timely.bounded.exists_closing windowsEarly
      obtain ⟨tick, inTicks, rfl⟩ :=
        (Pseudoclock.exists_tick_iff faithful made).2 ⟨inTime, asked⟩
      rw [(timely.ramps output member placement placed span ramp).1, program.lineTicks_fast,
        Placement.stop_of_ramp ramp]
      exact ⟨tick, inTicks, ended _
        (Demand.mem_windows_of.2 ⟨output, member, placement, placed, span, ramp, rfl⟩)⟩

/-- If everything ends before the stop, the last sample of an output is the value that is requested
last. -/
theorem getLast?_samples (faithful : TimeGrid.ExactUpTo settings.timeBase stop)
    (made : clock.program outputs stop settings = .ok program)
    (early : ∀ output ∈ outputs, ∀ placement ∈ output.timeline.items, placement.stop < stop)
    (member : output ∈ outputs) (sampled : output.samples program = .ok values) :
    values.getLast? = some (output.finalValue settings.timeBase) := by
  obtain ⟨first, firstIn, -⟩ := Pseudoclock.exists_lineTick faithful made output.line
    (Demand.mem_boundaries_of.2 (Or.inl rfl))
  obtain ⟨last, isLast⟩ : ∃ last, (program.lineTicks output.line).getLast? = some last := by
    rw [← Option.ne_none_iff_exists', Ne, List.getLast?_eq_none_iff]
    exact List.ne_nil_of_mem firstIn
  have lastIn : last ∈ program.ticks := (List.mem_filter.1 (List.mem_of_getLast? isLast)).1
  have inTime := ((Pseudoclock.exists_tick_iff faithful made).1 ⟨last, lastIn, rfl⟩).1
  have inGrid : stop ≤ 2 ^ 53 := faithful.le_last
  have past : ∀ placement ∈ output.timeline.items, placement.stop ≤ last.position := by
    intro placement placed
    obtain ⟨tick, onLine, after⟩ := exists_tick_past faithful made early member placed
    exact Nat.le_trans after
      (Chronology.le_of_getLast? (Program.lineTicks_ordered (Pseudoclock.program_fits faithful made) output.line) isLast onLine)
  have fits := Pseudoclock.program_fits faithful made
  rw [((samples_eq_ok fits).1 sampled).2, List.getLast?_map, isLast, Option.map_some,
    Pseudoclock.timeBase_program made, valueAt_of_past past (by omega)]

end Output

/-! ### The stop position -/

/-- The greatest of measures is at least the one it starts from, and that of each item. -/
theorem Chronology.le_foldl_max {α : Type} (measure : α → Nat) (items : List α) (start : Nat) :
    start ≤ items.foldl (fun last item => max last (measure item)) start ∧
      ∀ item ∈ items,
        measure item ≤ items.foldl (fun last item => max last (measure item)) start := by
  induction items generalizing start with
  | nil => exact ⟨Nat.le_refl start, fun _ member => absurd member List.not_mem_nil⟩
  | cons first rest ih =>
      obtain ⟨atLeast, each⟩ := ih (max start (measure first))
      rw [List.foldl_cons, List.forall_mem_cons]
      exact ⟨Nat.le_trans (Nat.le_max_left ..) atLeast,
        Nat.le_trans (Nat.le_max_right ..) atLeast, each⟩

theorem Pseudoclock.le_lastWait {clock : Pseudoclock} {wait : Wait}
    (member : wait ∈ clock.waits.items) : wait.position ≤ clock.lastWait := by
  have chronological := clock.waits.increasing.imp fun less => Nat.le_of_lt less
  rw [lastWait]
  cases isLast : clock.waits.items.getLast? with
  | none =>
      rw [List.getLast?_eq_none_iff.1 isLast] at member
      exact absurd member List.not_mem_nil
  | some last => exact Chronology.le_of_getLast? chronological isLast member

namespace Experiment

variable {experiment before after : Experiment}

/-- No instruction ends after the last position, and no wait is after it. -/
theorem le_lastStop (experiment : Experiment) :
    (∀ output ∈ experiment.outputs, ∀ placement ∈ output.timeline.items,
      placement.stop ≤ experiment.lastStop) ∧
    ∀ wait ∈ experiment.clock.waits.items, wait.position ≤ experiment.lastStop := by
  obtain ⟨afterWaits, afterDevices⟩ := Chronology.le_foldl_max Device.lastStop
    experiment.devices.values experiment.clock.lastWait
  refine ⟨fun output member placement placed => ?_, fun wait member =>
    Nat.le_trans (Pseudoclock.le_lastWait member) afterWaits⟩
  obtain ⟨device, registered, inDevice⟩ := List.mem_flatMap.1 member
  obtain ⟨channel, channelIn, rfl⟩ := List.mem_map.1 inDevice
  calc placement.stop
      ≤ channel.timeline.lastStop :=
        (Chronology.le_foldl_max Placement.stop channel.timeline.items 0).2 placement placed
    _ ≤ device.lastStop :=
        (Chronology.le_foldl_max (fun channel : Channel => channel.timeline.lastStop)
          device.channels.values 0).2 channel channelIn
    _ ≤ experiment.lastStop := afterDevices device registered

theorem Recording.minPositions_eq (recording : Recording before after) :
    after.clock.minPositions = before.clock.minPositions := by
  have cleared := congrArg (fun cleared : Experiment => cleared.clock.minPositions)
    recording.clear_eq
  exact cleared

/-- Commands keep it that the clock takes some time for a tick. -/
theorem session_minPositions {clockName : String} {minPeriod : Float} {settings : Settings}
    (made : create clockName minPeriod settings = .ok experiment) (commands : List Command) :
    1 ≤ (experiment.session commands).clock.minPositions := by
  have kept : ∀ command, Steps.Keeps
      (fun experiment => experiment.Named ∧ 1 ≤ experiment.clock.minPositions)
      (perform command) := fun command =>
    perform_keeps And.left command
      (fun _ _ _ start registration => ⟨registration.named start.1, by
        cases registration <;> exact start.2⟩)
      fun start recording => ⟨recording.keeps (fun _ => named_clear) start.1, by
        rw [recording.minPositions_eq]
        exact start.2⟩
  refine (session_keeps (fun command _ => kept command) ⟨named_create made, ?_⟩).2
  obtain ⟨-, clock, created, rfl⟩ := create_eq_ok.1 made
  rw [Pseudoclock.create] at created
  split at created
  · split at created
    · rename_i positive
      cases created
      exact positive
    · cases created
  · cases created

end Experiment

/-! ### Faults -/

/-- Faults that say that the stop is too early, or that something lies at or past it. -/
def Fault.concernsStop : Fault → Bool
  | .timeline _ _ .stopNotPositive | .timeline _ _ (.stopBeforeEnd _)
  | .timeline _ _ (.startPastStop ..) | .timeline _ _ (.rampPastStop ..)
  | .timeline _ _ (.waitPastStop _) => true
  | _ => false

/-- If something fails, it is not for the stop. -/
abbrev InTime {α : Type} (made : Except Fault α) : Prop :=
  Checks.FailsWith (fun fault => fault.concernsStop = false) made

/-- A placement that ends before the stop may be refused for its line or for its length. -/
theorem Output.checkPlacement_inTime {output : Output} {timeBase : Float} {stop : Nat}
    {placement : Placement} (early : placement.stop < stop) :
    InTime (output.checkPlacement timeBase stop placement) := by
  have starts : ¬ stop ≤ placement.start := by
    have := placement.start_le_stop
    omega
  unfold checkPlacement
  rw [if_neg starts]
  cases ramp : placement.ramp with
  | none => exact Checks.failsWith_ok ()
  | some span =>
      have ends : ¬ stop < span.stop := by
        rw [Placement.stop_of_ramp ramp] at early
        omega
      dsimp only
      rw [if_neg ends]
      exact Checks.failsWith_ite (Checks.failsWith_error rfl)
        (Checks.failsWith_ite (Checks.failsWith_error rfl) (Checks.failsWith_ok ()))

/-- A wait before the stop may be refused for a ramp that spans it. -/
theorem Schedule.checkWait_inTime {clock : Pseudoclock} {windows : List Window} {timeBase : Float}
    {stop : Nat} {wait : Wait} (early : wait.position < stop) :
    InTime (checkWait clock windows timeBase stop wait) := by
  unfold checkWait
  rw [if_neg (Nat.not_le.2 early)]
  cases windows.find? fun window => window.spans wait.position with
  | none => exact Checks.failsWith_ok ()
  | some window => exact Checks.failsWith_error rfl

/-- Samples may fail for values that an output cannot produce. -/
theorem Output.samples_inTime (output : Output) (program : Program) :
    InTime (output.samples program) := by
  intro fault failed
  obtain ⟨_, _, refuses⟩ := refuses_of_samples failed
  rw [refuses.reports]
  split <;> rfl

namespace Experiment

variable {experiment : Experiment}

/-- Without a stop time everything ends before the stop, since a tick takes some time. -/
theorem compile_inTime (positive : 1 ≤ experiment.clock.minPositions) :
    InTime (experiment.compile none) := by
  obtain ⟨outputsEnd, waitsEnd⟩ := experiment.le_lastStop
  refine compile_failsWith (Checks.failsWith_ok _) (fun position ends => ?_)
    fun program _ _ _ _ _ _ => Output.samples_inTime _ program
  obtain rfl := Except.ok.inj ends
  refine Pseudoclock.program_failsWith (fun atStart => ?_) ?_ ?_ (fun _ _ _ _ => rfl)
    fun _ _ => rfl
  · omega
  · intro output member placement placed
    have := outputsEnd output member placement placed
    exact Output.checkPlacement_inTime (by omega)
  · intro windows wait member
    have := waitsEnd wait member
    exact Schedule.checkWait_inTime (by omega)

/-- Without a stop time the last sample of every channel is the value that is requested last. -/
theorem compile_getLast? {compiled : Compiled} (positive : 1 ≤ experiment.clock.minPositions)
    (faithful : TimeGrid.ExactUpTo experiment.settings.timeBase
      (experiment.lastStop + experiment.clock.minPositions))
    (made : experiment.compile none = .ok compiled) {device name : String} {found : Device}
    {channel : Channel} (lookup : experiment.device device = .ok found)
    (held : found.channel name = .ok channel) :
    ∃ sampled values, compiled.device device = .ok sampled ∧ sampled.channel name = .ok values ∧
      values.getLast? =
        some ((channel.toOutput found.line).finalValue experiment.settings.timeBase) := by
  obtain ⟨sampled, values, sampledIn, valuesIn, samples⟩ := compile_channel made lookup held
  obtain ⟨position, program, devices, ends, runs, -, rfl⟩ := compile_eq_ok.1 made
  obtain rfl := Except.ok.inj ends
  have member : channel.toOutput found.line ∈ experiment.outputs := by
    have registered := Registry.get?_eq_some_iff.1 (device_eq_ok.1 lookup)
    have channelIn := Registry.get?_eq_some_iff.1 (Device.channel_eq_ok.1 held)
    exact List.mem_flatMap.2 ⟨found, Registry.mem_values_iff.2 ⟨device, registered⟩,
      List.mem_map.2 ⟨channel, Registry.mem_values_iff.2 ⟨name, channelIn⟩, rfl⟩⟩
  refine ⟨sampled, values, sampledIn, valuesIn,
    Output.getLast?_samples faithful runs (fun output outputIn placement placed => ?_) member
      samples⟩
  have := experiment.le_lastStop.1 output outputIn placement placed
  omega

/-- After any session, an experiment that is compiled without a stop time outputs every final value.
The last sample of every channel, on the line of its device, is the value that is requested last:
the default without instructions, the level of a last constant, and the value at the end of its
domain of a last ramp.  And if it does not compile, no instruction, ramp or wait is the reason that
lies at or past the stop, nor is it the stop itself. -/
theorem compile_final_values {clockName : String} {minPeriod : Float} {settings : Settings}
    {new : Experiment} (made : create clockName minPeriod settings = .ok new)
    (commands : List Command) :
    let experiment := new.session commands
    (∀ compiled, experiment.compile none = .ok compiled →
      TimeGrid.ExactUpTo experiment.settings.timeBase
        (experiment.lastStop + experiment.clock.minPositions) →
      ∀ device name found channel, experiment.device device = .ok found →
        found.channel name = .ok channel →
        ∃ sampled values, compiled.device device = .ok sampled ∧
          sampled.channel name = .ok values ∧
          (channel.timeline.items = [] → values.getLast? = some channel.default) ∧
          ∀ last, channel.timeline.items.getLast? = some last →
            (last.ramp = none → values.getLast? = some last.instruction.level) ∧
            ∀ span, last.ramp = some span →
              values.getLast? = some (last.instruction.evaluate 1 (TimeGrid.seconds
                (span.stop - last.start) experiment.settings.timeBase))) ∧
    ∀ fault, experiment.compile none = .error fault → fault.concernsStop = false := by
  intro experiment
  have positive : 1 ≤ experiment.clock.minPositions := session_minPositions made commands
  refine ⟨fun compiled compiles faithful device name found channel lookup held => ?_,
    compile_inTime positive⟩
  obtain ⟨sampled, values, sampledIn, valuesIn, final⟩ :=
    compile_getLast? positive faithful compiles lookup held
  refine ⟨sampled, values, sampledIn, valuesIn, fun empty => ?_, fun last isLast => ⟨?_, ?_⟩⟩
  · rw [final, Output.finalValue, Channel.toOutput, empty]
    rfl
  · intro constant
    rw [final, Output.finalValue, Channel.toOutput, isLast]
    dsimp only
    rw [Placement.finalValue, constant]
  · intro span ramp
    rw [final, Output.finalValue, Channel.toOutput, isLast]
    dsimp only
    rw [Placement.finalValue, ramp]

/-- A session with a ramp on the fast line, and a level on the slow one while the ramp goes on. -/
def endingSession : List Command :=
  [.addDevice "volts" .analogCard .fast, .addAnalogChannel "volts" 0 0,
    .addDevice "gates" .digitalCard .slow, .addDigitalChannel "gates" 0 0 0,
    .linear "volts" "ao0" 0 ⟨2e-8, 1e8⟩ 0 1, .level "gates" "port0/line0" true 1e-8]

/-- The ramp of the session ends with its final value, which is one. -/
theorem endingSession_final : ∃ new compiled sampled values last,
    create "clock" 1e-8 {} = .ok new ∧
      (new.session endingSession).compile none = .ok compiled ∧
      compiled.device "volts" = .ok sampled ∧ sampled.channel "ao0" = .ok values ∧
      values.getLast? = some last ∧ (last == 1) = true := by
  have run : (do
      let new ← create "clock" 1e-8 {}
      let experiment := new.session endingSession
      let _ ← experiment.compile none
      let channel ← experiment.channel "volts" "ao0"
      return (decide (TimeGrid.ExactUpTo experiment.settings.timeBase
          (experiment.lastStop + experiment.clock.minPositions)),
        channel.timeline.items.getLast?.map fun last => (last.ramp, last.instruction.evaluate 1
          (TimeGrid.seconds (20 - last.start) experiment.settings.timeBase) == 1)) :
        Except Fault (Bool × Option (Option RampSpan × Bool))).toOption =
      some (true, some (some ⟨20, 10⟩, true)) := by decide +kernel
  obtain ⟨new, made, run⟩ := Checks.bind_eq_ok.1 (Checks.toOption_eq_some_iff.1 run)
  obtain ⟨compiled, compiles, run⟩ := Checks.bind_eq_ok.1 run
  obtain ⟨channel, lookup, run⟩ := Checks.bind_eq_ok.1 run
  obtain ⟨exact, ends⟩ := Prod.mk.inj (Except.ok.inj run)
  obtain ⟨last, isLast, ends⟩ := Option.map_eq_some_iff.1 ends
  obtain ⟨ramp, isOne⟩ := Prod.mk.inj ends
  obtain ⟨found, registered, held⟩ := channel_eq_ok.1 lookup
  obtain ⟨sampled, values, sampledIn, valuesIn, -, final⟩ :=
    (compile_final_values made endingSession).1 compiled compiles (of_decide_eq_true exact)
      "volts" "ao0" found channel registered held
  exact ⟨new, compiled, sampled, values, _, made, compiles, sampledIn, valuesIn,
    (final last isLast).2 _ ramp, isOne⟩

end Experiment

end Metronome
