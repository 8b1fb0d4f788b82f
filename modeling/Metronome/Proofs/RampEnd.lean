/-
Module: Metronome.Proofs.RampEnd
Purpose: Which ramps get a tick at their end, and with it their final value.
Trusted boundary: none
Main exports:
  Demand.EndSampled, Demand.Bounded.ticksAt_stop_iff, Output.end_sampled_iff,
  Output.staggered_end_missed
-/
import Metronome.Proofs.Fraction
import Metronome.Proofs.Sampling

/-!
Only the last end among the ramps of a segment gets a closing tick.  A ramp that ends while another
one goes on has a tick at its end only by chance: the samples are counted anew from every boundary,
so the end need not be one of them.  Then an earlier value stays on the output.
-/

namespace Metronome

/-- A clock ticks at the end of a ramp for one of three reasons: it is a boundary, no ramp that is
active goes on, or it lies a whole number of sample periods after the last boundary. -/
def Demand.EndSampled (demand : Demand) (window : Window) : Prop :=
  window.stop ∈ demand.boundaries ∨
    (∀ other ∈ demand.active window.stop, other.stop ≤ window.stop) ∨
    window.period ∣ window.stop - demand.latest window.stop

instance (demand : Demand) (window : Window) : Decidable (demand.EndSampled window) := by
  unfold Demand.EndSampled
  infer_instance

/-- The three reasons are the only ones. -/
theorem Demand.Bounded.ticksAt_stop_iff {demand : Demand} {stop : Nat}
    (bounded : demand.Bounded stop) (compatible : demand.Compatible) {window : Window}
    (member : window ∈ demand.windows) :
    demand.TicksAt window.stop ↔ demand.EndSampled window := by
  by_cases boundary : window.stop ∈ demand.boundaries
  · exact iff_of_true (Or.inl boundary) (Or.inl boundary)
  obtain ⟨latestIn, before, -⟩ := Demand.latest_spec bounded.zero window.stop
  have goesOn : demand.latest window.stop < window.stop := by
    apply Nat.lt_of_le_of_ne before
    intro same
    rw [same] at latestIn
    exact boundary latestIn
  have active : window ∈ demand.active window.stop :=
    bounded.mem_active member (Nat.le_of_lt (bounded.nonempty window member)) goesOn
  have started := (Demand.mem_active.1 active).2.1
  have samePeriod : ∀ other ∈ demand.active window.stop, other.period = window.period := by
    intro other otherActive
    obtain ⟨otherIn, otherStarted, otherGoesOn⟩ := Demand.mem_active.1 otherActive
    exact compatible other otherIn window member (by omega) (by omega)
  rw [Demand.TicksAt, Demand.EndSampled]
  constructor
  · intro asked
    rcases asked with here | ⟨⟨other, otherActive, multiple⟩, -⟩ | ⟨-, last⟩
    · exact Or.inl here
    · rw [samePeriod other otherActive] at multiple
      exact Or.inr (Or.inr multiple)
    · exact Or.inr (Or.inl last)
  · intro sampled
    rcases sampled with here | last | multiple
    · exact Or.inl here
    · exact Or.inr (Or.inr ⟨⟨window, active, rfl⟩, last⟩)
    · by_cases last : ∀ other ∈ demand.active window.stop, other.stop ≤ window.stop
      · exact Or.inr (Or.inr ⟨⟨window, active, rfl⟩, last⟩)
      · have later : ∃ other ∈ demand.active window.stop, window.stop < other.stop := by
          simpa using last
        exact Or.inr (Or.inl ⟨⟨window, active, multiple⟩, later⟩)

/-- Only the nearest point of the unit interval matters to a ramp. -/
theorem Instruction.evaluate_of_clampUnit {instruction : Instruction} {x y duration : Float}
    (same : Number.clampUnit x = Number.clampUnit y) :
    instruction.evaluate x duration = instruction.evaluate y duration := by
  rw [evaluate, evaluate, same]

/-- From the end of its domain on a ramp has its final value. -/
theorem Placement.value_of_stop_le {placement : Placement} {span : RampSpan}
    (ramp : placement.ramp = some span) {position : Nat} (past : span.stop ≤ position)
    (small : position < 2 ^ 53) (timeBase : Float) :
    placement.value timeBase position = placement.instruction.evaluate 1
      (TimeGrid.seconds (span.stop - placement.start) timeBase) := by
  have nonempty := (placement.fits_of_ramp ramp).1
  have whole : Number.clampUnit (Number.ofWord (position - placement.start) /
      Number.ofWord (span.stop - placement.start)) = Number.clampUnit 1 :=
    Number.clampUnit_fraction (by omega) (by omega) (by omega)
  rw [value_of_ramp ramp (by omega)]
  exact Instruction.evaluate_of_clampUnit whole

namespace Output

/-- The domain of a ramp of an output as the clock sees it. -/
def window (output : Output) (placement : Placement) (span : RampSpan) : Window :=
  ⟨output.name, placement.start, span.stop, span.period⟩

variable {clock : Pseudoclock} {outputs : List Output} {stop : Nat} {settings : Settings}
  {program : Program} {output : Output} {placement : Placement} {span : RampSpan}

/-- The last instruction that has started is held at the value that it has at the last tick. -/
theorem held_of_latest (faithful : TimeGrid.ExactUpTo settings.timeBase stop)
    (made : clock.program outputs stop settings = .ok program) (member : output ∈ outputs)
    {values : List Float} (sampled : output.samples program = .ok values) {position : Nat}
    (placed : placement ∈ output.timeline.items) (started : placement.start ≤ position)
    (latest : ∀ other ∈ output.timeline.items,
      other.start ≤ position → other.start ≤ placement.start) :
    ∃ tick ∈ program.lineTicks output.line, tick.position ≤ position ∧
      (∀ other ∈ program.lineTicks output.line,
        other.position ≤ position → other.position ≤ tick.position) ∧
      output.held program values position =
        some (tick, placement.value settings.timeBase tick.position) := by
  obtain ⟨tick, last, held⟩ := exists_held faithful made member sampled position
  obtain ⟨onLine, before, greatest⟩ := (Chronology.latest_eq_some_iff
    (lineTicks_increasing faithful made output.line)).1 last
  have isCurrent : output.current position = some placement :=
    (Chronology.latest_eq_some_iff output.timeline.increasing).2 ⟨placed, started, latest⟩
  rw [isCurrent, value, Pseudoclock.timeBase_program made] at held
  exact ⟨tick, onLine, before, greatest, held⟩

/-- A program ticks at the end of a ramp exactly if one of the three reasons is given.  If so, the
output has the final value of the ramp from there until its next instruction.  If not, what it has
at the end of the ramp is the value at an earlier tick. -/
theorem end_sampled_iff (faithful : TimeGrid.ExactUpTo settings.timeBase stop)
    (made : clock.program outputs stop settings = .ok program) (member : output ∈ outputs)
    (placed : placement ∈ output.timeline.items) (ramp : placement.ramp = some span)
    (early : span.stop < stop) :
    ((∃ tick ∈ program.ticks, tick.position = span.stop) ↔
      (Demand.of clock outputs).EndSampled (output.window placement span)) ∧
    ∀ values, output.samples program = .ok values →
      ((Demand.of clock outputs).EndSampled (output.window placement span) →
        ∀ position, span.stop ≤ position →
          (∀ other ∈ output.timeline.items,
            other.start ≤ position → other.start ≤ placement.start) →
          ∃ tick, span.stop ≤ tick.position ∧ output.held program values position =
            some (tick, placement.instruction.evaluate 1
              (TimeGrid.seconds (span.stop - placement.start) settings.timeBase))) ∧
      (¬ (Demand.of clock outputs).EndSampled (output.window placement span) →
        (∀ other ∈ output.timeline.items,
          other.start ≤ span.stop → other.start ≤ placement.start) →
        ∃ tick, tick.position < span.stop ∧ output.held program values span.stop =
          some (tick, placement.value settings.timeBase tick.position)) := by
  obtain ⟨timely, compatible, -, -⟩ := Pseudoclock.program_eq_ok.1 made
  have fast := (timely.ramps output member placement placed span ramp).1
  have nonempty := (placement.fits_of_ramp ramp).1
  have windowIn : output.window placement span ∈ (Demand.of clock outputs).windows :=
    Demand.mem_windows_of.2 ⟨output, member, placement, placed, span, ramp, rfl⟩
  have ticked : (∃ tick ∈ program.ticks, tick.position = span.stop) ↔
      (Demand.of clock outputs).EndSampled (output.window placement span) := by
    rw [Pseudoclock.exists_tick_iff faithful made, ← timely.bounded.ticksAt_stop_iff compatible
      windowIn]
    exact and_iff_right early
  have onLine : ∀ tick ∈ program.ticks, tick ∈ program.lineTicks output.line := by
    intro tick inTicks
    rw [fast]
    exact List.mem_filter.2 ⟨inTicks, rfl⟩
  refine ⟨ticked, fun values sampled => ⟨fun met position past latest => ?_,
    fun missed latest => ?_⟩⟩
  · obtain ⟨last, lastIn, -, greatest, held⟩ :=
      held_of_latest faithful made member sampled placed (by omega) latest
    obtain ⟨closing, closingIn, atEnd⟩ := ticked.2 met
    have reached := greatest closing (onLine closing closingIn) (by omega)
    have inTime := ((Pseudoclock.exists_tick_iff faithful made).1
      ⟨last, (List.mem_filter.1 lastIn).1, rfl⟩).1
    have inGrid : stop ≤ 2 ^ 53 := faithful.le_last
    rw [Placement.value_of_stop_le ramp (by omega) (by omega)] at held
    exact ⟨last, by omega, held⟩
  · obtain ⟨last, lastIn, before, -, held⟩ :=
      held_of_latest faithful made member sampled placed (by omega) latest
    refine ⟨last, Nat.lt_of_le_of_ne before fun atEnd => missed (ticked.1 ?_), held⟩
    exact ⟨last, (List.mem_filter.1 lastIn).1, atEnd⟩

/-- The later of two staggered ramps gets its final value at its end. -/
theorem staggered_end_sampled : ∃ program,
    Pseudoclock.bare.program staggered 40 {} = .ok program ∧
      ∃ tick ∈ program.ticks, tick.position = 25 := by
  have succeeds : (Pseudoclock.bare.program staggered 40 {}).isOk = true := by decide +kernel
  obtain ⟨program, made⟩ := Checks.isOk_iff.1 succeeds
  have member : twoSamples "ao/ao1" 5 ∈ staggered := List.mem_cons_of_mem _ (List.mem_cons_self ..)
  have placed : Placement.twoSamples 5 ∈ (twoSamples "ao/ao1" 5).timeline.items :=
    List.mem_cons_self ..
  have ramp : (Placement.twoSamples 5).ramp = some ⟨25, 10⟩ := rfl
  have ticked := (end_sampled_iff (by decide +kernel) made member placed ramp (by decide)).1
  exact ⟨program, made, ticked.2 (by decide)⟩

/-- The earlier one does not: it ends at 20, where no tick is, and what is held there is the value
at 15, three quarters of the way. -/
theorem staggered_end_missed : ∃ program values tick value,
    Pseudoclock.bare.program staggered 40 {} = .ok program ∧
      (twoSamples "ao/ao0" 0).samples program = .ok values ∧
      (¬ ∃ tick ∈ program.ticks, tick.position = 20) ∧
      (twoSamples "ao/ao0" 0).held program values 20 = some (tick, value) ∧
      tick.position = 15 ∧ (value == 0.75) = true ∧
      ((Placement.twoSamples 0).instruction.evaluate 1 (TimeGrid.seconds 20 1e9) == 1) = true := by
  have succeeds : (Pseudoclock.bare.program staggered 40 {} >>=
      (twoSamples "ao/ao0" 0).samples).isOk = true := by decide +kernel
  obtain ⟨values, both⟩ := Checks.isOk_iff.1 succeeds
  obtain ⟨program, made, sampled⟩ := Checks.bind_eq_ok.1 both
  have faithful : TimeGrid.ExactUpTo ({} : Settings).timeBase 40 := by decide +kernel
  have ticks_iff := @Pseudoclock.exists_tick_iff _ _ _ _ _ faithful made
  have only : ∀ position, position < 21 → 15 ≤ position →
      (Demand.of .bare staggered).TicksAt position → position = 15 := by decide
  have alone : ∀ other ∈ [Placement.twoSamples 0], other.start ≤ 20 → other.start ≤ 0 := by decide
  obtain ⟨tick, onLine, before, greatest, held⟩ := held_of_latest faithful made
    (List.mem_cons_self ..) sampled (List.mem_cons_self ..) (Nat.zero_le 20) alone
  obtain ⟨sample, sampleIn, atSample⟩ : ∃ sample ∈ program.ticks, sample.position = 15 :=
    ticks_iff.2 (by decide)
  have reached := greatest sample (List.mem_filter.2 ⟨sampleIn, rfl⟩) (by omega)
  have asked := (ticks_iff.1 ⟨tick, (List.mem_filter.1 onLine).1, rfl⟩).2
  have atTick := only tick.position (by omega) (by omega) asked
  rw [atTick] at held
  have unsampled : ¬ ∃ tick ∈ program.ticks, tick.position = 20 := by
    rw [ticks_iff]
    decide
  have value : ((Placement.twoSamples 0).value ({} : Settings).timeBase 15 == 0.75) = true := by
    decide +kernel
  exact ⟨program, values, tick, _, made, sampled, unsampled, held, atTick, value,
    by decide +kernel⟩

end Output

end Metronome
