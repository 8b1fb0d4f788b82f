/-
Module: Metronome.Proofs.Sampling
Purpose: The samples of an output, held from tick to tick, realise its timeline.
Trusted boundary: none
Main exports:
  Output.held, Output.held_eq, Output.exists_held, Output.held_realises
-/
import Metronome.Proofs.Pointwise
import Metronome.Proofs.Ticks

/-!
A sample is the value of the instruction that is current at its tick.  Between two ticks of a line
nothing starts, since both lines tick at every boundary; so the instruction that is current at the
last tick is still the current one.
-/

namespace Metronome.Output

/-- The sample that an output holds at a position, with the tick it is taken at: the one of the last
tick on its line up to there. -/
def held (output : Output) (program : Program) (values : List Float) (position : Nat) :
    Option (Tick × Float) :=
  Chronology.latest (fun sample => sample.1.position)
    ((program.lineTicks output.line).zip values) position

variable {clock : Pseudoclock} {outputs : List Output} {stop : Nat} {settings : Settings}
  {program : Program} {output : Output} {values : List Float}

theorem lineTicks_increasing (faithful : TimeGrid.ExactUpTo settings.timeBase stop)
    (made : clock.program outputs stop settings = .ok program) (line : ClockLine) :
    (program.lineTicks line).Pairwise fun first second => first.position < second.position :=
  (Pseudoclock.ticks_increasing faithful made).filter _

/-- What is held is the value at the last tick of what is current there. -/
theorem held_eq (fits : program.nominalLength < UInt64.size)
    (sampled : output.samples program = .ok values) (position : Nat) :
    output.held program values position =
      (Chronology.latest Tick.position (program.lineTicks output.line) position).map fun tick =>
        (tick, output.value program.timeBase tick.position (output.current tick.position)) := by
  have paired : (program.lineTicks output.line).zip values =
      (program.lineTicks output.line).map fun tick =>
        (tick, output.value program.timeBase tick.position (output.current tick.position)) := by
    rw [((samples_eq_ok fits).1 sampled).2, ← List.zip_map', List.map_id']
    rfl
  rw [held, paired, Chronology.latest, List.filter_map, List.getLast?_map]
  rfl

/-- Every line has a last tick up to each position. -/
theorem exists_lastTick (faithful : TimeGrid.ExactUpTo settings.timeBase stop)
    (made : clock.program outputs stop settings = .ok program) (line : ClockLine)
    (position : Nat) :
    ∃ tick, Chronology.latest Tick.position (program.lineTicks line) position = some tick := by
  obtain ⟨first, member, starts⟩ := Pseudoclock.exists_lineTick faithful made line
    (Demand.mem_boundaries_of.2 (Or.inl rfl))
  cases last : Chronology.latest Tick.position (program.lineTicks line) position with
  | some tick => exact ⟨tick, rfl⟩
  | none =>
      have later := Chronology.latest_eq_none_iff.1 last first member
      omega

/-- At the last tick of its line an output has the same instruction as at the position itself, since
its instructions start at ticks. -/
theorem current_lastTick (faithful : TimeGrid.ExactUpTo settings.timeBase stop)
    (made : clock.program outputs stop settings = .ok program) (member : output ∈ outputs)
    {position : Nat} {tick : Tick}
    (last : Chronology.latest Tick.position (program.lineTicks output.line) position =
      some tick) : output.current tick.position = output.current position := by
  obtain ⟨-, before, greatest⟩ := (Chronology.latest_eq_some_iff
    (lineTicks_increasing faithful made output.line)).1 last
  have starts : ∀ placement ∈ output.timeline.items,
      (placement.start ≤ tick.position ↔ placement.start ≤ position) := by
    intro placement placed
    refine ⟨fun early => Nat.le_trans early before, fun early => ?_⟩
    obtain ⟨other, otherIn, starts⟩ := Pseudoclock.exists_lineTick faithful made output.line
      (Demand.mem_boundaries_of.2 (Or.inr (Or.inl ⟨output, member, placement, placed, rfl⟩)))
    have bound := greatest other otherIn (by omega)
    omega
  rw [current, current, Chronology.latest, Chronology.latest]
  refine congrArg List.getLast? (List.filter_congr fun placement placed => ?_)
  rw [decide_eq_decide]
  exact starts placement placed

/-- What an output holds is the value, at the last tick on its line, of the instruction that is
current. -/
theorem exists_held (faithful : TimeGrid.ExactUpTo settings.timeBase stop)
    (made : clock.program outputs stop settings = .ok program) (member : output ∈ outputs)
    (sampled : output.samples program = .ok values) (position : Nat) :
    ∃ tick, Chronology.latest Tick.position (program.lineTicks output.line) position =
        some tick ∧
      output.held program values position =
        some (tick, output.value program.timeBase tick.position (output.current position)) := by
  obtain ⟨tick, last⟩ := exists_lastTick faithful made output.line position
  refine ⟨tick, last, ?_⟩
  rw [held_eq (Pseudoclock.program_fits faithful made) sampled, last, ← current_lastTick faithful made member last]
  rfl

/-- While the ramp of an output goes on, its line ticked less than a sample period ago. -/
theorem lastTick_near (faithful : TimeGrid.ExactUpTo settings.timeBase stop)
    (made : clock.program outputs stop settings = .ok program) (member : output ∈ outputs)
    {placement : Placement} (placed : placement ∈ output.timeline.items) {span : RampSpan}
    (ramp : placement.ramp = some span) {position : Nat} (started : placement.start ≤ position)
    (goesOn : position < span.stop) {tick : Tick}
    (last : Chronology.latest Tick.position (program.lineTicks output.line) position =
      some tick) : position - tick.position < span.period := by
  obtain ⟨timely, -, -, -⟩ := Pseudoclock.program_eq_ok.1 made
  obtain ⟨fast, inside, -⟩ := timely.ramps output member placement placed span ramp
  obtain ⟨sample, before, near, asked⟩ := timely.bounded.exists_ticksAt
    (Demand.mem_windows_of.2 ⟨output, member, placement, placed, span, ramp, rfl⟩) started goesOn
  obtain ⟨other, otherIn, rfl⟩ := (Pseudoclock.exists_tick_iff faithful made).2
    ⟨Nat.lt_of_le_of_lt before (Nat.lt_of_lt_of_le goesOn inside), asked⟩
  have otherOnLine : other ∈ program.lineTicks output.line := by
    rw [fast]
    exact List.mem_filter.2 ⟨otherIn, rfl⟩
  have greatest := ((Chronology.latest_eq_some_iff
    (lineTicks_increasing faithful made output.line)).1 last).2.2 other otherOnLine before
  exact Nat.lt_of_le_of_lt (Nat.sub_le_sub_left greatest position) near

/-- The samples of an output, held from tick to tick, realise its timeline at every position.  Until
the first instruction the default is held.  From then on the last instruction that
has started counts: of a constant its level is held, and of a ramp that is not over the value at a
tick after its start and less than a sample period ago. -/
theorem held_realises (faithful : TimeGrid.ExactUpTo settings.timeBase stop)
    (made : clock.program outputs stop settings = .ok program) (member : output ∈ outputs)
    (sampled : output.samples program = .ok values) (position : Nat) :
    ∃ tick value, output.held program values position = some (tick, value) ∧
      tick ∈ program.lineTicks output.line ∧ tick.position ≤ position ∧
      (∀ other ∈ program.lineTicks output.line,
        other.position ≤ position → other.position ≤ tick.position) ∧
      ((∀ placement ∈ output.timeline.items, position < placement.start) →
        value = output.default) ∧
      ∀ placement ∈ output.timeline.items, placement.start ≤ position →
        (∀ other ∈ output.timeline.items,
          other.start ≤ position → other.start ≤ placement.start) →
        (placement.ramp = none → value = placement.instruction.level) ∧
        ∀ span, placement.ramp = some span → position < span.stop →
          placement.start ≤ tick.position ∧ position - tick.position < span.period ∧
            value = placement.instruction.evaluate
              (Number.ofWord (tick.position - placement.start) /
                Number.ofWord (span.stop - placement.start))
              (TimeGrid.seconds (span.stop - placement.start) settings.timeBase) := by
  obtain ⟨tick, last, held⟩ := exists_held faithful made member sampled position
  obtain ⟨onLine, before, greatest⟩ := (Chronology.latest_eq_some_iff
    (lineTicks_increasing faithful made output.line)).1 last
  refine ⟨tick, _, held, onLine, before, greatest, fun later => ?_,
    fun placement placed started latest => ?_⟩
  · rw [current, Chronology.latest_eq_none_iff.2 later]
    rfl
  · have isCurrent : output.current position = some placement :=
      (Chronology.latest_eq_some_iff output.timeline.increasing).2 ⟨placed, started, latest⟩
    rw [isCurrent, value, Pseudoclock.timeBase_program made]
    refine ⟨Placement.value_of_constant, fun span ramp goesOn => ?_⟩
    obtain ⟨other, otherIn, starts⟩ := Pseudoclock.exists_lineTick faithful made output.line
      (Demand.mem_boundaries_of.2 (Or.inr (Or.inl ⟨output, member, placement, placed, rfl⟩)))
    have afterStart : placement.start ≤ tick.position := by
      have := greatest other otherIn (by omega)
      omega
    exact ⟨afterStart, lastTick_near faithful made member placed ramp started goesOn last,
      Placement.value_of_ramp ramp afterStart⟩

/-- At position 12 the second of two staggered ramps is held at a sample of its own domain. -/
theorem staggered_held : ∃ program values tick value,
    Pseudoclock.bare.program staggered 40 {} = .ok program ∧
      (twoSamples "ao/ao1" 5).samples program = .ok values ∧
      (twoSamples "ao/ao1" 5).held program values 12 = some (tick, value) ∧
      5 ≤ tick.position ∧ 12 - tick.position < 10 := by
  have succeeds : (Pseudoclock.bare.program staggered 40 {} >>=
      (twoSamples "ao/ao1" 5).samples).isOk = true := by decide +kernel
  obtain ⟨values, both⟩ := Checks.isOk_iff.1 succeeds
  obtain ⟨program, made, sampled⟩ := Checks.bind_eq_ok.1 both
  have member : twoSamples "ao/ao1" 5 ∈ staggered := List.mem_cons_of_mem _ (List.mem_cons_self ..)
  obtain ⟨tick, value, held, -, -, -, -, realised⟩ :=
    held_realises (by decide +kernel) made member sampled 12
  rw [items_twoSamples] at realised
  have only : ∀ other ∈ [Placement.twoSamples 5], other.start ≤ 12 → other.start ≤ 5 := by decide
  obtain ⟨later, near, -⟩ :=
    (realised (.twoSamples 5) (List.mem_cons_self ..) (by decide) only).2 ⟨25, 10⟩ rfl (by decide)
  exact ⟨program, values, tick, value, made, sampled, held, later, near⟩

end Metronome.Output
