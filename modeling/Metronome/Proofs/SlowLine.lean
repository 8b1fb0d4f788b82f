/-
Module: Metronome.Proofs.SlowLine
Purpose: On the slow line an output has a sub-sequence of its samples on the fast line.
Trusted boundary: none
Main exports:
  Output.onLine, Output.samples_slow_of_fast, Pseudoclock.tickCount_slow,
  Output.slow_samples_of_fast
-/
import Metronome.Proofs.Ticks

/-!
A sample depends on its tick alone, and the slow line sees some of the ticks of the fast one.  So
what an output can produce on the fast line it can produce on the slow line, and its samples there
are found among those of the fast line by the indices of the dual-rate ticks.
-/

namespace Metronome

/-- The accepted items of a list are those at the indices of accepted items. -/
theorem Chronology.map_getElem?_findIdxs {α : Type} (accepts : α → Bool) (items : List α) :
    (items.findIdxs accepts).map (items[·]?) = (items.filter accepts).map some := by
  induction items with
  | nil => rfl
  | cons first rest ih =>
      have shifted : (rest.findIdxs accepts 1).map ((first :: rest)[·]?) =
          (rest.filter accepts).map some := by
        rw [List.findIdxs_start, List.map_map, ← ih]
        exact List.map_congr_left fun _ _ => List.getElem?_cons_succ
      rw [List.findIdxs_cons, List.filter_cons]
      split
      · rw [List.map_cons, List.map_cons, List.getElem?_cons_zero, shifted]
      · exact shifted

namespace Output

/-- The output seen on another line. -/
def onLine (output : Output) (line : ClockLine) : Output :=
  { output with line }

variable {output : Output} {program : Program}

/-- The line has no part in what a timeline asks for, nor in what the output can produce. -/
theorem samples_onLine_eq_ok (fits : program.nominalLength < UInt64.size) {line : ClockLine} {values : List Float} :
    (output.onLine line).samples program = .ok values ↔
      (∀ tick ∈ program.lineTicks line,
        output.CanProduce (output.valueAt program.timeBase tick.position)) ∧
      values = (program.lineTicks line).map fun tick =>
        output.valueAt program.timeBase tick.position :=
  samples_eq_ok fits

/-- An output that can be sampled on the fast line can be sampled on the slow line, where it has the
samples at the indices of the dual-rate ticks. -/
theorem samples_slow_of_fast (fits : program.nominalLength < UInt64.size) {fast : List Float}
    (sampled : (output.onLine .fast).samples program = .ok fast) :
    ∃ slow, (output.onLine .slow).samples program = .ok slow ∧
      slow.map some = (program.ticks.findIdxs Tick.dualRate).map (fast[·]?) := by
  obtain ⟨possible, rfl⟩ := (samples_onLine_eq_ok fits).1 sampled
  rw [program.lineTicks_fast] at possible ⊢
  refine ⟨_, (samples_onLine_eq_ok fits).2 ⟨?_, rfl⟩, ?_⟩
  · intro tick member
    exact possible tick (List.mem_filter.1 member).1
  · rw [program.lineTicks_slow, List.map_map]
    calc (program.ticks.filter Tick.dualRate).map
          (some ∘ fun tick => output.valueAt program.timeBase tick.position)
        = ((program.ticks.filter Tick.dualRate).map some).map
            (Option.map fun tick => output.valueAt program.timeBase tick.position) := by
          rw [List.map_map]
          rfl
      _ = ((program.ticks.findIdxs Tick.dualRate).map (program.ticks[·]?)).map
            (Option.map fun tick => output.valueAt program.timeBase tick.position) := by
          rw [Chronology.map_getElem?_findIdxs]
      _ = (program.ticks.findIdxs Tick.dualRate).map fun index =>
            (program.ticks.map fun tick =>
              output.valueAt program.timeBase tick.position)[index]? := by
          rw [List.map_map]
          exact List.map_congr_left fun _ _ => List.getElem?_map.symm

end Output

/-- The slow line ticks once at every boundary, on every time base. -/
theorem Pseudoclock.tickCount_slow {clock : Pseudoclock} {outputs : List Output} {stop : Nat}
    {settings : Settings} {program : Program}
    (made : clock.program outputs stop settings = .ok program) :
    program.tickCount .slow = (Demand.of clock outputs).boundaries.dedup.length := by
  obtain ⟨-, -, -, rfl⟩ := program_eq_ok.1 made
  have serves := Schedule.gather_serves clock outputs stop
  generalize Schedule.gather clock outputs stop = schedule at serves
  -- Where the seconds are inexact, the ticks need not stand at the boundaries, but their rates are
  -- those of the schedule.
  have counted : ∀ ticks : List Tick,
      (ticks.filter Tick.dualRate).length = ((ticks.map Tick.dualRate).filter id).length := by
    intro ticks
    rw [List.filter_map, List.length_map]
    rfl
  have distinct : schedule.boundaries.items.Nodup :=
    schedule.boundaries.increasing.imp Nat.ne_of_lt
  calc (schedule.assembled settings).tickCount .slow
      = (schedule.gridTicks.filter Tick.dualRate).length := by
        rw [← Program.length_lineTicks, Program.lineTicks_slow, counted,
          Schedule.assembled_rates, counted]
    _ = schedule.boundaries.items.length := by
        rw [← schedule.gridTicks_dual, List.length_map]
    _ = (Demand.of clock outputs).boundaries.dedup.length := by
        refine List.Perm.length_eq ((List.perm_ext_iff_of_nodup distinct
          (List.nodup_dedup _)).2 fun position => ?_)
        rw [serves.boundaries, List.mem_dedup]

namespace Output

/-- Two ramps with a pause between them. -/
def paused : List Output := [twoSamples "ao/ao0" 0, twoSamples "ao/ao1" 30]

end Output

end Metronome
