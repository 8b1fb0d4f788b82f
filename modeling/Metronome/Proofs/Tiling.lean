/-
Module: Metronome.Proofs.Tiling
Purpose: The ticks of every program fill the time up to the stop without a gap, and the slow line
  ticks at the boundaries and nowhere else.
Trusted boundary: none
Main exports:
  Program.ticks_positions, Pseudoclock.program_tiles
-/
import Metronome.Proofs.Ticks

namespace Metronome

/-- Each tick of a program that fits in a word stands where the periods of those before it lead
to. -/
theorem Program.ticks_positions {program : Program}
    (fits : program.nominalLength < UInt64.size) :
    program.ticks.map Tick.position =
      (List.range program.tickPeriods.length).map fun k => (program.tickPeriods.take k).sum := by
  have fromZero := nominalFrom_positions program.timeBase 0 program.runs
  simp only [Nat.zero_add] at fromZero
  rw [ticks_eq_nominal fits]
  exact fromZero

namespace Pseudoclock

/-- The ticks of a program start at zero and increase, each of them lasts for its period up to the
next one and the last up to the stop, and the dual-rate ones are the start, the starts of
instructions and the waits, each of them once. -/
theorem program_tiles {clock : Pseudoclock} {outputs : List Output} {stop : Nat}
    {settings : Settings} {program : Program}
    (faithful : TimeGrid.ExactUpTo settings.timeBase stop)
    (made : clock.program outputs stop settings = .ok program) :
    (program.ticks.map Tick.position).head? = some 0 ∧
      (program.ticks.map Tick.position).Pairwise (· < ·) ∧
      (program.ticks.map Tick.position =
        (List.range program.tickPeriods.length).map fun k =>
          (program.tickPeriods.take k).sum) ∧
      (∀ period ∈ program.tickPeriods, 1 ≤ period) ∧
      program.tickPeriods.sum = stop ∧
      ((program.ticks.filter Tick.dualRate).map Tick.position).Nodup ∧
      ∀ position, position ∈ (program.ticks.filter Tick.dualRate).map Tick.position ↔
        position = 0 ∨
          (∃ output ∈ outputs, ∃ placement ∈ output.timeline.items,
            placement.start = position) ∨
          ∃ wait ∈ clock.waits.items, wait.position = position := by
  have serves := Schedule.gather_serves clock outputs stop
  have dual := dualTicks_eq faithful made
  have increasing := ticks_increasing faithful made
  have positions := Program.ticks_positions (program_fits faithful made)
  obtain ⟨timely, -, -, rfl⟩ := program_eq_ok.1 made
  obtain ⟨positive, total⟩ := serves.assembled_periods timely.bounded faithful
  refine ⟨?_, List.pairwise_map.2 increasing, positions, positive, total, ?_,
    fun position => ?_⟩
  · have nonempty : 0 < ((Schedule.gather clock outputs stop).assembled
        settings).tickPeriods.length := by
      apply List.length_pos_of_ne_nil
      intro none
      rw [none] at total
      exact absurd total (Nat.ne_of_lt timely.positive)
    rw [positions, List.head?_map, List.head?_range, if_neg (by omega)]
    rfl
  · rw [dual]
    exact (Schedule.gather clock outputs stop).boundaries.increasing.imp Nat.ne_of_lt
  · rw [dual, serves.boundaries]
    exact Demand.mem_boundaries_of

/-- The program of two staggered ramps tiles forty positions. -/
theorem staggered_tiles : ∃ program, bare.program Output.staggered 40 {} = .ok program ∧
    (program.ticks.map Tick.position).Pairwise (· < ·) ∧ program.tickPeriods.sum = 40 := by
  have succeeds : (bare.program Output.staggered 40 {}).isOk = true := by decide +kernel
  obtain ⟨program, made⟩ := Checks.isOk_iff.1 succeeds
  have tiles := program_tiles (by decide +kernel) made
  exact ⟨program, made, tiles.2.1, tiles.2.2.2.2.1⟩

end Pseudoclock

end Metronome
