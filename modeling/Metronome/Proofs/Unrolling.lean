/-
Module: Metronome.Proofs.Unrolling
Purpose: The ticks of a program as sums of its periods, and what a further run adds to them.
Trusted boundary: none
Main exports:
  Run.positions_of_beq, Run.ticks, Run.offset_le, Program.length, Program.periods, Program.nominalFrom,
  Program.nominalLength, Program.ticks_eq_onWord, Program.ticks_eq_nominal,
  Program.nominalFrom_positions, Program.rates, Program.ticksFrom_rates, Program.firstTicks_eq,
  Entry.unrolled_pushRun, Entry.periods_pushRun, Entry.span_pushRun, Entry.rates_pushRun
-/
import Mathlib
import Metronome.Program

/-!
The ticks of a program stand at the sums of the periods before them, as long as these fit in a word;
otherwise at what is left of the sums modulo its size.  Sums are associative, so there are few laws
of the unrolling that have to know of words.

Runs are merged if their periods are equal as doubles.  Equal doubles need not be the same, since
there are two zeros, but they give the same number of positions; so a merged run has the ticks of
its two parts, on every time base.
-/

namespace Metronome

namespace Number

open Float.Model (UnpackedFloat)

/-- Doubles that compare as equal are the same, or both of them are zeros. -/
theorem eq_or_zeros_of_beq {x y : Float} (equal : (x == y) = true) :
    x = y ∨ ((∃ sign, x.toModel.unpack = .zero sign) ∧ ∃ sign, y.toModel.unpack = .zero sign) := by
  obtain ⟨-, -, same | ⟨rfl, rfl⟩ | ⟨rfl, rfl⟩⟩ := Float.beq_iff_ne_nan_and_eq.1 equal
  · exact Or.inl same
  · exact Or.inr ⟨⟨.positive, rfl⟩, .negative, rfl⟩
  · exact Or.inr ⟨⟨.negative, rfl⟩, .positive, rfl⟩

/-- A zero times anything is a zero or no number, which has no positions. -/
theorem toWord_nearest_zero_mul {sign : UnpackedFloat.Sign} {x : Float}
    (zero : x.toModel.unpack = .zero sign) (y : Float) : toWord (nearest (x * y)) = 0 := by
  have product : x * y =
      .ofModel (.pack (UnpackedFloat.mul .binary64 (.zero sign) y.toModel.unpack)) := by
    rw [← zero]
    rfl
  have unpacked : UnpackedFloat.mul .binary64 (.zero sign) y.toModel.unpack = .notANumber ∨
      ∃ result, UnpackedFloat.mul .binary64 (.zero sign) y.toModel.unpack = .zero result := by
    cases y.toModel.unpack with
    | notANumber => exact Or.inl rfl
    | infinity other => exact Or.inl rfl
    | zero other => exact Or.inr ⟨sign * other, rfl⟩
    | finite other => exact Or.inr ⟨sign * other, rfl⟩
  rw [product]
  rcases unpacked with undefined | ⟨result, isZero⟩
  · rw [undefined]
    decide
  · rw [isZero]
    cases result with
    | negative => decide
    | positive => decide

end Number

/-- Equal periods are the same number of positions. -/
theorem Run.positions_of_beq {first second : Run} (equal : (first.period == second.period) = true)
    (timeBase : Float) : first.positions timeBase = second.positions timeBase := by
  unfold positions
  rcases Number.eq_or_zeros_of_beq equal with same | ⟨⟨sign, firstZero⟩, other, secondZero⟩
  · rw [same]
  · rw [Number.toWord_nearest_zero_mul firstZero, Number.toWord_nearest_zero_mul secondZero]

/-- The single ticks of a run that begins at a position. -/
def Run.ticks (run : Run) (timeBase : Float) (start : Nat) : List Tick :=
  (List.range run.repetitions).map fun k => ⟨start + k * run.positions timeBase, run.dualRate⟩

/-- The ticks of a run come before what it takes is over. -/
theorem Run.offset_le {run : Run} {k : Nat} (inRange : k ∈ List.range run.repetitions)
    (timeBase : Float) :
    k * run.positions timeBase ≤ run.positions timeBase * run.repetitions := by
  rw [Nat.mul_comm]
  exact Nat.mul_le_mul_left _ (Nat.le_of_lt (List.mem_range.1 inRange))

/-- A prolonged run has the ticks of the run and then those of what prolongs it. -/
theorem Run.ticks_prolonged {last run : Run} {timeBase : Float}
    (positions : last.positions timeBase = run.positions timeBase)
    (rate : last.dualRate = run.dualRate) (start : Nat) :
    ({ last with repetitions := last.repetitions + run.repetitions } : Run).ticks timeBase start =
      last.ticks timeBase start ++
        run.ticks timeBase (start + last.positions timeBase * last.repetitions) := by
  have prolonged : ({ last with repetitions := last.repetitions + run.repetitions } : Run).positions
      timeBase = run.positions timeBase := positions
  unfold ticks
  rw [prolonged, positions, rate, List.range_add, List.map_append, List.map_map]
  congr 1
  apply List.map_congr_left
  intro k _
  simp only [Function.comp_apply, Tick.mk.injEq, and_true]
  rw [Nat.add_mul, Nat.mul_comm last.repetitions, Nat.add_assoc]

/-- The positions that runs take together. -/
def Program.length (timeBase : Float) (runs : List Run) : Nat :=
  (runs.map fun run => run.positions timeBase * run.repetitions).sum

/-- The distance from each single tick of runs to the next one. -/
def Program.periods (timeBase : Float) (runs : List Run) : List Nat :=
  runs.flatMap fun run => List.replicate run.repetitions (run.positions timeBase)

/-- The periods of all ticks make up the whole length. -/
theorem Program.sum_periods (timeBase : Float) (runs : List Run) :
    (periods timeBase runs).sum = length timeBase runs := by
  unfold periods length
  induction runs with
  | nil => rfl
  | cons run rest ih =>
      rw [List.flatMap_cons, List.sum_append, ih, List.sum_replicate_nat, List.map_cons,
        List.sum_cons, Nat.mul_comm]

/-- The ticks of runs that begin at a position, on a grid without an end. -/
def Program.nominalFrom (timeBase : Float) (start : Nat) : List Run → List Tick
  | [] => []
  | run :: rest =>
      run.ticks timeBase start ++
        nominalFrom timeBase (start + run.positions timeBase * run.repetitions) rest

/-- The tick as its position is kept in a word. -/
def Tick.onWord (tick : Tick) : Tick :=
  { tick with position := tick.position % UInt64.size }

/-- Sums that begin again at zero whenever they are too large for a word are in the end sums of which
the word is taken once. -/
theorem Program.ticksFrom_eq_onWord (timeBase : Float) (start : Nat) (runs : List Run) :
    ticksFrom timeBase (start % UInt64.size) runs =
      (nominalFrom timeBase start runs).map Tick.onWord := by
  induction runs generalizing start with
  | nil => rfl
  | cons run rest ih =>
      rw [ticksFrom, nominalFrom, List.map_append, ← ih, Run.ticks, List.map_map, Nat.mod_add_mod]
      congr 1
      apply List.map_congr_left
      intro k _
      rw [Function.comp_apply, Tick.onWord, Nat.mod_add_mod]

namespace Program

/-- The ticks of a program on a grid without an end. -/
def nominal (program : Program) : List Tick :=
  nominalFrom program.timeBase 0 program.runs

/-- The positions that a program takes on a grid without an end. -/
def nominalLength (program : Program) : Nat :=
  length program.timeBase program.runs

theorem ticks_eq_onWord (program : Program) :
    program.ticks = program.nominal.map Tick.onWord :=
  ticksFrom_eq_onWord program.timeBase 0 program.runs

/-- Ticks stand from the start of their runs up to the end. -/
theorem nominalFrom_bounds (timeBase : Float) (start : Nat) (runs : List Run) :
    ∀ tick ∈ nominalFrom timeBase start runs,
      start ≤ tick.position ∧ tick.position ≤ start + length timeBase runs := by
  induction runs generalizing start with
  | nil => exact fun _ member => absurd member List.not_mem_nil
  | cons run rest ih =>
      intro tick member
      have total : length timeBase (run :: rest) =
          run.positions timeBase * run.repetitions + length timeBase rest := rfl
      rcases List.mem_append.1 member with first | inRest
      · obtain ⟨k, inRange, rfl⟩ := List.mem_map.1 first
        have inRun := Run.offset_le inRange timeBase
        dsimp only
        omega
      · have bounds := ih _ tick inRest
        omega

/-- As long as a program fits in a word, so do the positions of its ticks. -/
theorem ticks_eq_nominal {program : Program} (fits : program.nominalLength < UInt64.size) :
    program.ticks = program.nominal := by
  rw [ticks_eq_onWord]
  refine (List.map_congr_left fun tick member => ?_).trans (List.map_id _)
  have bounds := nominalFrom_bounds program.timeBase 0 program.runs tick member
  rw [Nat.zero_add] at bounds
  rw [Tick.onWord, Nat.mod_eq_of_lt (Nat.lt_of_le_of_lt bounds.2 fits)]
  rfl

/-- Each tick of runs stands where the periods of those before it lead to. -/
theorem nominalFrom_positions (timeBase : Float) (start : Nat) (runs : List Run) :
    (nominalFrom timeBase start runs).map Tick.position =
      (List.range (periods timeBase runs).length).map fun k =>
        start + ((periods timeBase runs).take k).sum := by
  unfold periods
  induction runs generalizing start with
  | nil => rfl
  | cons run rest ih =>
      rw [nominalFrom, Run.ticks, List.map_append, ih, List.flatMap_cons, List.length_append,
        List.length_replicate, List.range_add, List.map_append, List.map_map, List.map_map]
      congr 1
      · apply List.map_congr_left
        intro k inRange
        have inRun : k ≤ run.repetitions := Nat.le_of_lt (List.mem_range.1 inRange)
        have length : k ≤ (List.replicate run.repetitions (run.positions timeBase)).length := by
          rw [List.length_replicate]
          exact inRun
        rw [List.take_append_of_le_length length, List.take_replicate, List.sum_replicate_nat,
          Nat.min_eq_left inRun]
        rfl
      · apply List.map_congr_left
        intro k _
        have past : (List.replicate run.repetitions (run.positions timeBase)).length + k =
            run.repetitions + k := by rw [List.length_replicate]
        rw [Function.comp_apply, ← past, List.take_length_add_append, List.sum_append,
          List.sum_replicate_nat, Nat.mul_comm run.repetitions, Nat.add_assoc]

/-- For each single tick of runs whether it is on both lines. -/
def rates (runs : List Run) : List Bool :=
  runs.flatMap fun run => List.replicate run.repetitions run.dualRate

/-- The rates of the ticks do not depend on their positions. -/
theorem ticksFrom_rates (timeBase : Float) (start : Nat) (runs : List Run) :
    (ticksFrom timeBase start runs).map Tick.dualRate = rates runs := by
  unfold rates
  induction runs generalizing start with
  | nil => rfl
  | cons run rest ih =>
      rw [ticksFrom, List.map_append, ih, List.map_map, List.flatMap_cons]
      congr 1
      exact List.map_const'.trans (by rw [List.length_range])

theorem nominalFrom_append (timeBase : Float) (start : Nat) (first second : List Run) :
    nominalFrom timeBase start (first ++ second) =
      nominalFrom timeBase start first ++
        nominalFrom timeBase (start + length timeBase first) second := by
  induction first generalizing start with
  | nil => simp [nominalFrom, length]
  | cons run rest ih =>
      simp only [List.cons_append, nominalFrom, ih, List.append_assoc, length, List.map_cons,
        List.sum_cons, Nat.add_assoc]

/-! ### The first ticks -/

theorem ticksFrom_takeRuns_zero (timeBase : Float) (start : Nat) (runs : List Run) :
    ticksFrom timeBase start (takeRuns 0 runs) = [] := by
  induction runs generalizing start with
  | nil => rfl
  | cons run rest ih => simp [takeRuns, ticksFrom, ih]

/-- Runs that are cut off have the first ticks of the whole runs.  A run is cut off only if no tick
of a later one is left, so that it does not matter where those would begin. -/
theorem ticksFrom_takeRuns (timeBase : Float) (start count : Nat) (runs : List Run) :
    ticksFrom timeBase start (takeRuns count runs) =
      (ticksFrom timeBase start runs).take count := by
  induction runs generalizing start count with
  | nil => exact List.take_nil.symm
  | cons run rest ih =>
      have positions : ({ run with repetitions := min count run.repetitions } : Run).positions
          timeBase = run.positions timeBase := rfl
      rw [takeRuns, ticksFrom, ticksFrom, List.take_append, List.length_map, List.length_range,
        ← List.map_take, List.take_range, positions]
      dsimp only
      congr 1
      by_cases whole : run.repetitions ≤ count
      · rw [Nat.min_eq_right whole, ih]
      · rw [Nat.sub_eq_zero_of_le (Nat.le_of_not_le whole), List.take_zero,
          ticksFrom_takeRuns_zero]

/-- The first ticks of a program can be had without the others. -/
theorem firstTicks_eq (program : Program) (count : Nat) :
    program.firstTicks count = program.ticks.take count :=
  ticksFrom_takeRuns program.timeBase 0 count program.runs

end Program

namespace Entry

/-- The runs of entries that are listed from the last to the first. -/
def runs (entries : List Entry) : List Run :=
  entries.reverse.filterMap run?

/-- The ticks of entries that are listed from the last to the first, on a grid without an end. -/
def unrolled (timeBase : Float) (entries : List Entry) : List Tick :=
  Program.nominalFrom timeBase 0 (runs entries)

/-- The position that entries, listed from the last to the first, lead to. -/
def span (timeBase : Float) (entries : List Entry) : Nat :=
  Program.length timeBase (runs entries)

@[simp] theorem runs_wait (marker : Marker) (entries : List Entry) :
    runs (.wait marker :: entries) = runs entries := by
  simp [runs, run?]

@[simp] theorem runs_tick (run : Run) (entries : List Entry) :
    runs (.tick run :: entries) = runs entries ++ [run] := by
  simp [runs, run?]

/-- A pushed run stands behind the others, or it prolongs the last of them, which has its period and
rate. -/
theorem runs_pushRun (run : Run) (entries : List Entry) :
    runs (pushRun run entries) = runs entries ++ [run] ∨
      ∃ before last, runs entries = before ++ [last] ∧
        (last.period == run.period) = true ∧ last.dualRate = run.dualRate ∧
        runs (pushRun run entries) =
          before ++ [{ last with repetitions := last.repetitions + run.repetitions }] := by
  cases entries with
  | nil => exact Or.inl (runs_tick run [])
  | cons entry rest =>
      cases entry with
      | wait marker => exact Or.inl (runs_tick run _)
      | tick last =>
          rw [pushRun]
          split
          · rename_i merges
            rw [Bool.and_eq_true] at merges
            exact Or.inr ⟨runs rest, last, runs_tick .., merges.1, eq_of_beq merges.2,
              runs_tick ..⟩
          · exact Or.inl (runs_tick run _)

/-- A pushed run adds its ticks. -/
theorem unrolled_pushRun (timeBase : Float) (run : Run) (entries : List Entry) :
    unrolled timeBase (pushRun run entries) =
      unrolled timeBase entries ++ run.ticks timeBase (span timeBase entries) := by
  have single : ∀ (start : Nat) (last : Run),
      Program.nominalFrom timeBase start [last] = last.ticks timeBase start := by
    intro start last
    simp [Program.nominalFrom]
  unfold unrolled span
  rcases runs_pushRun run entries with appended | ⟨before, last, runs, equal, rate, merged⟩
  · rw [appended, Program.nominalFrom_append, single, Nat.zero_add]
  · have positions := Run.positions_of_beq equal timeBase
    rw [merged, runs, Program.nominalFrom_append, Program.nominalFrom_append, single, single,
      List.append_assoc]
    congr 1
    rw [Run.ticks_prolonged positions rate, Nat.zero_add]
    simp [Program.length]

/-- The distance from each single tick in entries to the next one. -/
def periods (timeBase : Float) (entries : List Entry) : List Nat :=
  Program.periods timeBase (runs entries)

/-- A pushed run adds the period of each of its ticks. -/
theorem periods_pushRun (timeBase : Float) (run : Run) (entries : List Entry) :
    periods timeBase (pushRun run entries) =
      periods timeBase entries ++ List.replicate run.repetitions (run.positions timeBase) := by
  unfold periods Program.periods
  rcases runs_pushRun run entries with appended | ⟨before, last, runs, equal, -, merged⟩
  · simp [appended]
  · have positions := Run.positions_of_beq equal timeBase
    have prolonged :
        ({ last with repetitions := last.repetitions + run.repetitions } : Run).positions
          timeBase = run.positions timeBase := positions
    rw [merged, runs]
    simp only [List.flatMap_append, List.flatMap_cons, List.flatMap_nil, List.append_nil,
      List.append_assoc, prolonged, positions, List.replicate_append_replicate]

/-- A pushed run adds the positions that it takes. -/
theorem span_pushRun (timeBase : Float) (run : Run) (entries : List Entry) :
    span timeBase (pushRun run entries) =
      span timeBase entries + run.positions timeBase * run.repetitions := by
  unfold span
  rcases runs_pushRun run entries with appended | ⟨before, last, runs, equal, rate, merged⟩
  · simp [appended, Program.length]
  · have positions := Run.positions_of_beq equal timeBase
    have prolonged :
        ({ last with repetitions := last.repetitions + run.repetitions } : Run).positions
          timeBase = last.positions timeBase := rfl
    simp only [merged, runs, Program.length, List.map_append, List.map_cons, List.map_nil,
      List.sum_append, List.sum_cons, List.sum_nil, Nat.add_zero, prolonged, Nat.mul_add,
      Nat.add_assoc, positions]

/-- For each single tick in entries whether it is on both lines. -/
def rates (entries : List Entry) : List Bool :=
  Program.rates (runs entries)

/-- A pushed run adds the rate of each of its ticks. -/
theorem rates_pushRun (run : Run) (entries : List Entry) :
    rates (pushRun run entries) =
      rates entries ++ List.replicate run.repetitions run.dualRate := by
  unfold rates Program.rates
  rcases runs_pushRun run entries with appended | ⟨before, last, runs, -, rate, merged⟩
  · simp [appended]
  · rw [merged, runs]
    simp only [List.flatMap_append, List.flatMap_cons, List.flatMap_nil, List.append_nil,
      List.append_assoc, rate, List.replicate_append_replicate]

end Entry

end Metronome
