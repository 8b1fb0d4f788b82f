/-
Module: Metronome.Proofs.Admission
Purpose: A clock has a program for exactly the outputs and waits that fit together, and the ticks
  counted on the way are those of the program.
Trusted boundary: none
Main exports:
  Pseudoclock.countedTicks, Pseudoclock.exists_program_iff
-/
import Metronome.Proofs.Ticks

namespace Metronome.Pseudoclock

/-- The ticks that have been counted against the limit when the last segment has been appended. -/
def countedTicks (clock : Pseudoclock) (outputs : List Output) (stop : Nat)
    (settings : Settings) : Except Fault Nat := do
  let schedule ← Schedule.of clock outputs settings.timeBase stop
  let draft ← schedule.walk clock.name settings
  return draft.ticks

/-- The ticks of a program are those that the demand asks for, on every time base. -/
theorem tickCount_program {clock : Pseudoclock} {outputs : List Output} {stop : Nat}
    {settings : Settings} {program : Program}
    (made : clock.program outputs stop settings = .ok program) :
    program.tickCount .fast = (Demand.of clock outputs).tickCount stop := by
  obtain ⟨timely, compatible, -, rfl⟩ := program_eq_ok.1 made
  have serves := Schedule.gather_serves clock outputs stop
  have agree := (serves.agree_iff timely.bounded).2 compatible
  rw [Schedule.assembled_tickCount, serves.gridTicks_length timely.bounded agree]
  rfl

theorem countedTicks_program {clock : Pseudoclock} {outputs : List Output} {stop : Nat}
    {settings : Settings} {program : Program}
    (made : clock.program outputs stop settings = .ok program) :
    clock.countedTicks outputs stop settings = .ok (program.tickCount .fast) := by
  obtain ⟨timely, compatible, fits, rfl⟩ := program_eq_ok.1 made
  have serves := Schedule.gather_serves clock outputs stop
  have gathered : Schedule.of clock outputs settings.timeBase stop = .ok _ :=
    Schedule.of_eq_ok.2 ⟨timely, rfl⟩
  have walked : (Schedule.gather clock outputs stop).walk clock.name settings = .ok _ :=
    (serves.walk_eq_ok timely.bounded).2 ⟨compatible, fits, rfl⟩
  rw [Schedule.assembled_tickCount, ← Schedule.draft_ticks _ settings, countedTicks,
    Checks.bind_eq_ok]
  exact ⟨_, gathered, Checks.bind_eq_ok.2 ⟨_, walked, rfl⟩⟩

/-- A clock has a program exactly if every output and wait keeps to the stop, overlapping ramps have
the same sample period and the ticks do not exceed the limit.  The ticks counted against the limit
are those of the program, and those that the demand asks for. -/
theorem exists_program_iff (clock : Pseudoclock) (outputs : List Output) (stop : Nat)
    (settings : Settings) :
    ((∃ program, clock.program outputs stop settings = .ok program) ↔
      Schedule.Timely clock outputs stop ∧ (Demand.of clock outputs).Compatible ∧
        (Demand.of clock outputs).tickCount stop ≤ settings.maxTicks) ∧
    ∀ program, clock.program outputs stop settings = .ok program →
      clock.countedTicks outputs stop settings = .ok (program.tickCount .fast) ∧
        program.tickCount .fast = (Demand.of clock outputs).tickCount stop := by
  refine ⟨?_, fun program made => ⟨countedTicks_program made, tickCount_program made⟩⟩
  constructor
  · intro compiled
    obtain ⟨_, made⟩ := compiled
    obtain ⟨timely, compatible, fits, -⟩ := program_eq_ok.1 made
    exact ⟨timely, compatible, fits⟩
  · intro admitted
    obtain ⟨timely, compatible, fits⟩ := admitted
    exact ⟨_, program_eq_ok.2 ⟨timely, compatible, fits, rfl⟩⟩

end Metronome.Pseudoclock
