/-
Module: Metronome.Proofs.Extent
Purpose: How far the ticks of a program can reach beyond its stop, on every valid time base.
Trusted boundary: none
Main exports:
  TimeGrid.returned_le_double, ProgramDraft.WithinDouble, Pseudoclock.nominalLength_le_double
-/
import Metronome.Proofs.Cycles
import Metronome.Proofs.Ticks

/-!
A run keeps its period in seconds, and where these are inexact the ticks drift away from the
positions that the schedule asks for.  On a time base of at least one position per second the period
that comes back is never more than twice the one that was meant.  So the ticks of a program reach
twice its stop at most, and their positions fit in a word.
-/

namespace Metronome

open Number (value closest)

/-- The seconds of a distance lead back to twice the distance at most. -/
theorem TimeGrid.returned_le_double {timeBase : Float} (base : Number.Nonnegative timeBase)
    (one : 1 ≤ value timeBase) {distance : Nat} (pos : 1 ≤ distance) (bounded : distance ≤ 2 ^ 54) :
    Number.toWord (Number.nearest (seconds distance timeBase * timeBase)) ≤ 2 * distance := by
  obtain ⟨secondsNonneg, secondsNear⟩ :=
    seconds_near base one pos (Nat.lt_of_le_of_lt bounded (by decide))
  have basePos := zero_lt_one.trans_le one
  have least : (1 : ℚ) ≤ distance := by exact_mod_cast pos
  have most : (distance : ℚ) ≤ 2 ^ 54 := by exact_mod_cast bounded
  have product : value (seconds distance timeBase) * value timeBase ≤
      distance + distance / 2 ^ 47 := by
    have above := mul_le_mul_of_nonneg_right (sub_le_iff_le_add.1 (abs_le.1 secondsNear).2)
      basePos.le
    rw [add_mul, div_right_comm, div_mul_cancel₀ _ basePos.ne',
      div_mul_cancel₀ _ basePos.ne'] at above
    linarith
  cases Number.mul_roundsTo secondsNonneg base with
  | infinite _ large => linarith
  | finite nonneg near =>
      obtain ⟨whole, nearest⟩ := Number.nearest_of_nonnegative nonneg
      have spacing := Number.spacing_le (mul_nonneg secondsNonneg.value_nonneg basePos.le)
      have tiny := Number.least_le
      have above := (abs_le.1 near).2
      have rounded := (abs_le.1 (Number.closest_near nonneg.value_nonneg)).2
      have bound : (closest (value (seconds distance timeBase * timeBase)) : ℚ) <
          (2 * distance + 1 : Nat) := by
        push_cast
        linarith
      rw [Number.toWord_of_nonnegative whole, nearest, Nat.floor_natCast]
      exact (Nat.min_le_left ..).trans (Nat.lt_succ_iff.1 (by exact_mod_cast bound))

namespace ProgramDraft

variable {settings : Settings} {schedule : Schedule} {last : Nat}

/-- The runs of a draft that has got to a position take twice as many positions at most. -/
def WithinDouble (settings : Settings) (draft : ProgramDraft) (position : Nat) : Prop :=
  Entry.span settings.timeBase draft.entries ≤ 2 * position

/-- The seconds of every distance up to the last lead back to twice the distance at most. -/
def Doubles (settings : Settings) (last : Nat) : Prop :=
  ∀ distance, 1 ≤ distance → distance ≤ last → Number.toWord (Number.nearest
    (TimeGrid.seconds distance settings.timeBase * settings.timeBase)) ≤ 2 * distance

/-- Blocks keep a draft within the double of where it has got to. -/
theorem WithinDouble.foldl_pushBlock (doubled : Doubles settings last)
    {draft : ProgramDraft} {blocks : List Block} {start stop : Nat} (inside : stop ≤ last)
    (within : draft.WithinDouble settings start) (tile : Block.Tile start blocks stop) :
    (blocks.foldl (pushBlock settings) draft).WithinDouble settings stop := by
  induction blocks generalizing draft start with
  | nil => exact (tile : start = stop) ▸ within
  | cons block rest ih =>
      have reach := tile.period_le (List.mem_cons_self ..)
      obtain ⟨-, period, -, tail⟩ := tile
      refine ih ?_ tail
      have returned := Nat.mul_le_mul_right block.repetitions
        (doubled block.period period (by omega))
      rw [Nat.mul_assoc] at returned
      rw [WithinDouble, pushBlock, Entry.span_pushRun, Nat.mul_add]
      exact Nat.add_le_add within returned

/-- Segments keep a draft within the double of where it has got to. -/
theorem WithinDouble.foldl_extend (doubled : Doubles settings last)
    {draft : ProgramDraft} {segments : List Segment} {start stop : Nat} (inside : stop ≤ last)
    (within : draft.WithinDouble settings start) (follow : Segment.Follow start segments stop)
    (tiles : ∀ segment ∈ segments,
      Block.Tile segment.start (schedule.blocksOf segment) segment.next) :
    (segments.foldl (extend settings schedule) draft).WithinDouble settings stop := by
  induction segments generalizing draft start with
  | nil => exact (follow : start = stop) ▸ within
  | cons segment rest ih =>
      have bounds := follow.bounds (List.mem_cons_self ..)
      obtain ⟨rfl, -, tail⟩ := follow
      have entered : (draft.enter settings schedule segment).WithinDouble settings
          segment.start := by
        rw [WithinDouble, Entry.span, enter_runs, ← Entry.span]
        exact within
      have extended : (draft.extend settings schedule segment).WithinDouble settings segment.next :=
        WithinDouble.foldl_pushBlock doubled (Nat.le_trans bounds.2.2 inside) entered
          (tiles segment (List.mem_cons_self ..))
      exact ih extended tail fun other inRest => tiles other (List.mem_cons_of_mem _ inRest)

end ProgramDraft

/-- With valid settings a program takes twice the positions up to its stop at most. -/
theorem Pseudoclock.nominalLength_le_double {clock : Pseudoclock} {outputs : List Output}
    {stop : Nat} {settings : Settings} {program : Program} (checked : settings.check = .ok ())
    (bounded : stop ≤ 2 ^ 54) (made : clock.program outputs stop settings = .ok program) :
    program.nominalLength ≤ 2 * stop := by
  obtain ⟨base, one⟩ := Settings.timeBase_of_check checked
  have serves := Schedule.gather_serves clock outputs stop
  obtain ⟨timely, -, -, rfl⟩ := program_eq_ok.1 made
  have begun : ProgramDraft.WithinDouble settings
      { sweep := { pending := (Schedule.gather clock outputs stop).windows } } 0 := Nat.le_refl 0
  exact ProgramDraft.WithinDouble.foldl_extend
    (fun distance pos inside => TimeGrid.returned_le_double base one pos (inside.trans bounded))
    le_rfl begun (serves.follow timely.bounded)
    fun _ member => serves.blocks_tile timely.bounded member

end Metronome
