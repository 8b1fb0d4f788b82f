/-
Module: Metronome.Proofs.Pointwise
Purpose: A sample depends on its tick alone, and sampling fails at the first tick whose value the
  output cannot produce.
Trusted boundary: none
Main exports:
  Program.lineTicks_ordered, Program.length_lineTicks, Output.advance_eq, Output.current,
  Output.valueAt, Output.CanProduce, Output.Refuses, Output.length_samples,
  Output.canProduce_of_samples, Output.refuses_of_samples, Output.samplesFrom_eq,
  Output.samples_eq, Output.samples_pointwise
-/
import Metronome.Output
import Metronome.Proofs.Checks
import Metronome.Proofs.Chronology
import Metronome.Proofs.Unrolling

/-!
The sampler goes through the placements once, along the ticks.  The ticks of a program that fits in
a word come in the order of their positions, whatever its periods are, so what the sampler has
passed at a tick is what has started by then.  Sampling is therefore the check of one value for each
tick, and the values can be looked up one by one.  Where positions begin again at zero, the sampler
does not go back to what was current at a smaller one; the samples are then still values that the
output can produce.
-/

namespace Metronome

namespace Program

/-- On a grid without an end ticks come in the order of their positions, on every time base. -/
theorem nominalFrom_ordered (timeBase : Float) (start : Nat) (runs : List Run) :
    (nominalFrom timeBase start runs).Pairwise fun first second =>
      first.position ≤ second.position := by
  induction runs generalizing start with
  | nil => exact List.Pairwise.nil
  | cons run rest ih =>
      refine List.pairwise_append.2 ⟨?_, ih _, ?_⟩
      · rw [Run.ticks, List.pairwise_map]
        apply List.pairwise_lt_range.imp
        intro first second less
        exact Nat.add_le_add_left (Nat.mul_le_mul_right _ (Nat.le_of_lt less)) start
      · intro first member second inRest
        obtain ⟨k, inRange, rfl⟩ := List.mem_map.1 member
        exact Nat.le_trans (Nat.add_le_add_left (Run.offset_le inRange timeBase) start)
          (nominalFrom_bounds timeBase _ rest second inRest).1

/-- The fast line sees all ticks. -/
theorem lineTicks_fast (program : Program) : program.lineTicks .fast = program.ticks :=
  List.filter_eq_self.2 fun _ _ => rfl

/-- The slow line sees the dual-rate ticks. -/
theorem lineTicks_slow (program : Program) :
    program.lineTicks .slow = program.ticks.filter Tick.dualRate :=
  List.filter_congr fun _ _ => rfl

/-- The ticks of a program that fits in a word come in the order of their positions. -/
theorem lineTicks_ordered {program : Program} (fits : program.nominalLength < UInt64.size)
    (line : ClockLine) :
    (program.lineTicks line).Pairwise fun first second => first.position ≤ second.position := by
  rw [lineTicks, ticks_eq_nominal fits]
  exact (nominalFrom_ordered ..).filter _

/-- A line sees either all ticks of a run or none of them, so the ticks it sees are counted by
runs. -/
theorem length_lineTicks (program : Program) (line : ClockLine) :
    (program.lineTicks line).length = program.tickCount line := by
  have counted : ∀ (runs : List Run) (start : Nat),
      ((ticksFrom program.timeBase start runs).filter fun tick =>
          line = .fast || tick.dualRate).length =
        ((runs.filter (seenOn line)).map Run.repetitions).foldr (· + ·) 0 := by
    intro runs
    induction runs with
    | nil => exact fun _ => rfl
    | cons run rest ih =>
        intro start
        rw [ticksFrom, List.filter_append, List.length_append, ih, List.filter_map]
        by_cases seen : seenOn line run = true
        · have all : ∀ k ∈ List.range run.repetitions,
              ((fun tick : Tick => decide (line = .fast) || tick.dualRate) ∘
                fun k => ⟨(start + k * run.positions program.timeBase) % UInt64.size,
                  run.dualRate⟩) k = true :=
            fun _ _ => seen
          rw [List.filter_cons_of_pos seen, List.filter_eq_self.2 all, List.length_map,
            List.length_range]
          rfl
        · have none : ∀ k ∈ List.range run.repetitions,
              ¬ ((fun tick : Tick => decide (line = .fast) || tick.dualRate) ∘
                fun k => ⟨(start + k * run.positions program.timeBase) % UInt64.size,
                  run.dualRate⟩) k = true :=
            fun _ _ => seen
          rw [List.filter_cons_of_neg seen, List.filter_eq_nil_iff.2 none, List.map_nil,
            List.length_nil, Nat.zero_add]
  exact counted program.runs 0

end Program

/-- The unit interval is left alone. -/
theorem Number.clampUnit_clampUnit (x : Float) : clampUnit (clampUnit x) = clampUnit x := by
  unfold clampUnit
  split
  · decide
  · split
    · decide
    · simp_all

/-- A ramp looks at the nearest point of the unit interval. -/
theorem Instruction.evaluate_clampUnit (instruction : Instruction) (x duration : Float) :
    instruction.evaluate (Number.clampUnit x) duration = instruction.evaluate x duration := by
  rw [evaluate, evaluate, Number.clampUnit_clampUnit]

namespace Placement

variable {placement : Placement} {timeBase : Float} {position : Nat}

/-- A constant has its level at every position. -/
theorem value_of_constant (constant : placement.ramp = none) :
    placement.value timeBase position = placement.instruction.level := by
  rw [value, constant]

/-- A ramp that has started has the value at the fraction of its domain that has passed. -/
theorem value_of_ramp {span : RampSpan} (ramp : placement.ramp = some span)
    (started : placement.start ≤ position) :
    placement.value timeBase position = placement.instruction.evaluate
      (Number.ofWord (position - placement.start) / Number.ofWord (span.stop - placement.start))
      (TimeGrid.seconds (span.stop - placement.start) timeBase) := by
  rw [value, ramp, TimeGrid.passed, if_pos started]

end Placement

namespace Output

/-- The instruction that is current at a position: the last one that has started. -/
def current (output : Output) (position : Nat) : Option Placement :=
  Chronology.latest Placement.start output.timeline.items position

/-- What a timeline asks for at a position: the value there of the instruction that is current. -/
def valueAt (output : Output) (timeBase : Float) (position : Nat) : Float :=
  output.value timeBase position (output.current position)

/-- A value that an output can produce: a finite one, and on a digital output one of its levels. -/
def CanProduce (output : Output) (value : Float) : Prop :=
  value.isFinite = true ∧ (output.kind = .digital → (value == 0 ∨ value == 1))

variable {output : Output} {timeBase : Float}

/-- Before its first instruction a timeline asks for the default. -/
theorem valueAt_of_before {position : Nat}
    (later : ∀ placement ∈ output.timeline.items, position < placement.start) :
    output.valueAt timeBase position = output.default := by
  rw [valueAt, current, Chronology.latest_eq_none_iff.2 later]
  rfl

/-- From then on it asks for the value of the last instruction that has started. -/
theorem valueAt_of_latest {position : Nat} {placement : Placement}
    (placed : placement ∈ output.timeline.items) (started : placement.start ≤ position)
    (latest : ∀ other ∈ output.timeline.items,
      other.start ≤ position → other.start ≤ placement.start) :
    output.valueAt timeBase position = placement.value timeBase position := by
  have isCurrent : output.current position = some placement :=
    (Chronology.latest_eq_some_iff output.timeline.increasing).2 ⟨placed, started, latest⟩
  rw [valueAt, isCurrent]
  rfl

/-- A sample passes its check exactly if the output can produce it. -/
theorem checkSample_eq_ok {position : Nat} {value : Float} :
    output.checkSample timeBase position value = .ok () ↔ output.CanProduce value := by
  unfold checkSample CanProduce
  cases value.isFinite with
  | false => simp
  | true =>
      by_cases digital : output.kind = .digital
      · simp only [digital, bne]
        grind
      · simp [digital]

/-- A sample that does not pass it is reported as not finite before it is reported as no level. -/
theorem checkSample_eq_error {position : Nat} {value : Float} {fault : Fault} :
    output.checkSample timeBase position value = .error fault ↔
      ¬ output.CanProduce value ∧
        fault = if value.isFinite then
            .digitalValue output.name (TimeGrid.seconds position timeBase) value
          else .rampValue output.name (TimeGrid.seconds position timeBase) value := by
  have passes : output.checkSample timeBase position value = .ok () ↔ output.CanProduce value :=
    checkSample_eq_ok
  rw [← passes]
  unfold checkSample
  cases value.isFinite with
  | false => simp [eq_comm]
  | true =>
      simp only [Bool.not_true, Bool.false_eq_true, if_false, if_true]
      split <;> simp [eq_comm]

/-- An advance passes the placements in front that have started. -/
theorem advance_eq (position : Nat) (current : Option Placement) (upcoming : List Placement) :
    advance position current upcoming =
      ((upcoming.takeWhile fun placement => placement.start ≤ position).getLast?.or current,
        upcoming.dropWhile fun placement => placement.start ≤ position) := by
  induction upcoming generalizing current with
  | nil => rfl
  | cons next rest ih =>
      rw [advance]
      split
      · rename_i started
        rw [ih, List.takeWhile_cons_of_pos (by simpa using started),
          List.dropWhile_cons_of_pos (by simpa using started), List.getLast?_cons]
        cases (rest.takeWhile fun placement => placement.start ≤ position).getLast? <;> rfl
      · rename_i later
        rw [List.takeWhile_cons_of_neg (by simpa using later),
          List.dropWhile_cons_of_neg (by simpa using later)]
        rfl

/-! ### Samples on any ticks -/

/-- A fault that reports a value which an output cannot produce: its default, or the value at some
position of a placement on its timeline. -/
structure Refuses (output : Output) (timeBase : Float) (position : Nat)
    (current : Option Placement) (fault : Fault) : Prop where
  placed : ∀ placement, current = some placement → placement ∈ output.timeline.items
  impossible : ¬ output.CanProduce (output.value timeBase position current)
  reports : fault = if (output.value timeBase position current).isFinite then
      .digitalValue output.name (TimeGrid.seconds position timeBase)
        (output.value timeBase position current)
    else .rampValue output.name (TimeGrid.seconds position timeBase)
        (output.value timeBase position current)

/-- What an advance makes current and what it leaves are on the timeline. -/
theorem advance_placed {position : Nat} {current : Option Placement} {upcoming : List Placement}
    (placed : ∀ placement, current = some placement → placement ∈ output.timeline.items)
    (remain : ∀ placement ∈ upcoming, placement ∈ output.timeline.items) :
    (∀ placement, (advance position current upcoming).1 = some placement →
        placement ∈ output.timeline.items) ∧
      ∀ placement ∈ (advance position current upcoming).2, placement ∈ output.timeline.items := by
  induction upcoming generalizing current with
  | nil => exact ⟨placed, remain⟩
  | cons next rest ih =>
      rw [advance]
      split
      · refine ih (fun placement same => ?_) fun placement member =>
          remain placement (List.mem_cons_of_mem _ member)
        cases same
        exact remain next List.mem_cons_self
      · exact ⟨placed, remain⟩

/-- Samples that are taken on ticks in any order are as many as the ticks, and the output can
produce them. -/
theorem samplesFrom_eq_ok {taken values : List Float} {current : Option Placement}
    {upcoming : List Placement} {ticks : List Tick}
    (sampled : output.samplesFrom timeBase taken current upcoming ticks = .ok values) :
    ∃ added, values = taken.reverse ++ added ∧ added.length = ticks.length ∧
      ∀ value ∈ added, output.CanProduce value := by
  induction ticks generalizing taken current upcoming with
  | nil =>
      cases sampled
      exact ⟨[], (List.append_nil _).symm, rfl, fun _ member => absurd member List.not_mem_nil⟩
  | cons tick rest ih =>
      rw [samplesFrom] at sampled
      dsimp only at sampled
      split at sampled
      · cases sampled
      · rename_i checked
        obtain ⟨added, rfl, length, possible⟩ := ih sampled
        refine ⟨_ :: added, ?_, congrArg (· + 1) length,
          List.forall_mem_cons.2 ⟨checkSample_eq_ok.1 checked, possible⟩⟩
        rw [List.reverse_cons, List.append_assoc]
        rfl

/-- A fault on ticks in any order reports a value that the output cannot produce. -/
theorem samplesFrom_eq_error {taken : List Float} {current : Option Placement}
    {upcoming : List Placement} {ticks : List Tick} {fault : Fault}
    (placed : ∀ placement, current = some placement → placement ∈ output.timeline.items)
    (remain : ∀ placement ∈ upcoming, placement ∈ output.timeline.items)
    (failed : output.samplesFrom timeBase taken current upcoming ticks = .error fault) :
    ∃ position current, output.Refuses timeBase position current fault := by
  induction ticks generalizing taken current upcoming with
  | nil => cases failed
  | cons tick rest ih =>
      obtain ⟨nowPlaced, nowRemain⟩ := advance_placed placed remain
      rw [samplesFrom] at failed
      dsimp only at failed
      split at failed
      · rename_i refused
        cases failed
        obtain ⟨impossible, reports⟩ := checkSample_eq_error.1 refused
        exact ⟨_, _, nowPlaced, impossible, reports⟩
      · exact ih nowPlaced nowRemain failed

variable {program : Program}

/-- An output has one sample for each tick on its line, on every program. -/
theorem length_samples {values : List Float} (sampled : output.samples program = .ok values) :
    values.length = (program.lineTicks output.line).length := by
  obtain ⟨added, rfl, length, -⟩ := samplesFrom_eq_ok sampled
  exact length

/-- The samples of an output are values that it can produce, on every program. -/
theorem canProduce_of_samples {values : List Float}
    (sampled : output.samples program = .ok values) : ∀ value ∈ values, output.CanProduce value := by
  obtain ⟨added, rfl, -, possible⟩ := samplesFrom_eq_ok sampled
  exact possible

/-- If an output has no samples, it cannot produce a value that is asked for, on every program. -/
theorem refuses_of_samples {fault : Fault} (failed : output.samples program = .error fault) :
    ∃ position current, output.Refuses program.timeBase position current fault :=
  samplesFrom_eq_error (fun _ same => by cases same) (fun _ member => member) failed

/-! ### Samples on ticks in order -/

/-- The samples on the remaining ticks are the values that the timeline asks for there, if the
output can produce them.  The induction is on the ticks; what has been passed so far started by
every tick to come. -/
theorem samplesFrom_eq {taken : List Float} {ticks : List Tick}
    (ordered : ticks.Pairwise fun first second => first.position ≤ second.position)
    (passed : List Placement) {upcoming : List Placement}
    (split : output.timeline.items = passed ++ upcoming)
    (started : ∀ placement ∈ passed, ∀ tick ∈ ticks, placement.start ≤ tick.position) :
    output.samplesFrom timeBase taken passed.getLast? upcoming ticks =
      (ticks.forM fun tick => output.checkSample timeBase tick.position
        (output.valueAt timeBase tick.position)) >>= fun _ =>
      .ok (taken.reverse ++ ticks.map fun tick => output.valueAt timeBase tick.position) := by
  induction ticks generalizing taken passed upcoming with
  | nil =>
      rw [samplesFrom, List.map_nil, List.append_nil]
      rfl
  | cons tick rest ih =>
      obtain ⟨tickFirst, restOrdered⟩ := List.pairwise_cons.1 ordered
      have closed : upcoming.Pairwise fun first second =>
          decide (second.start ≤ tick.position) = true →
            decide (first.start ≤ tick.position) = true := by
        have increasing := output.timeline.increasing
        rw [split] at increasing
        apply (List.pairwise_append.1 increasing).2.1.imp
        intro less early
        simp only [decide_eq_true_eq] at early ⊢
        omega
      have passedAll : (passed.filter fun placement => placement.start ≤ tick.position) = passed :=
        List.filter_eq_self.2 fun placement member =>
          decide_eq_true (started placement member tick (List.mem_cons_self ..))
      have joined : (output.timeline.items.filter fun placement =>
            placement.start ≤ tick.position) =
          passed ++ upcoming.takeWhile fun placement => placement.start ≤ tick.position := by
        rw [split, List.filter_append, passedAll, Chronology.takeWhile_eq_filter closed]
      have current : (upcoming.takeWhile fun placement =>
            placement.start ≤ tick.position).getLast?.or passed.getLast? =
          output.current tick.position := by
        rw [Output.current, Chronology.latest, joined, List.getLast?_append]
      have splitNext : output.timeline.items =
          (output.timeline.items.filter fun placement => placement.start ≤ tick.position) ++
            upcoming.dropWhile fun placement => placement.start ≤ tick.position := by
        rw [joined, List.append_assoc, List.takeWhile_append_dropWhile, split]
      have startedNext : ∀ placement ∈
          output.timeline.items.filter (fun placement => placement.start ≤ tick.position),
            ∀ other ∈ rest, placement.start ≤ other.position := by
        intro placement member other inRest
        have early := of_decide_eq_true (List.mem_filter.1 member).2
        exact Nat.le_trans early (tickFirst other inRest)
      rw [samplesFrom, advance_eq, current, List.forM_eq_forM, List.forM_cons]
      dsimp only
      rw [← valueAt]
      cases output.checkSample timeBase tick.position
          (output.valueAt timeBase tick.position) with
      | error fault => rfl
      | ok checked =>
          refine (ih restOrdered _ splitNext startedNext).trans ?_
          rw [List.reverse_cons, List.append_assoc]
          rfl

/-- Sampling checks the values that the timeline asks for at the ticks of its line, in order. -/
theorem samples_eq (fits : program.nominalLength < UInt64.size) (output : Output) :
    output.samples program =
      ((program.lineTicks output.line).forM fun tick =>
        output.checkSample program.timeBase tick.position
          (output.valueAt program.timeBase tick.position)) >>= fun _ =>
      .ok ((program.lineTicks output.line).map fun tick =>
        output.valueAt program.timeBase tick.position) :=
  samplesFrom_eq (Program.lineTicks_ordered fits output.line) [] rfl
    fun _ member => absurd member List.not_mem_nil

theorem samples_eq_ok (fits : program.nominalLength < UInt64.size) {values : List Float} :
    output.samples program = .ok values ↔
      (∀ tick ∈ program.lineTicks output.line,
        output.CanProduce (output.valueAt program.timeBase tick.position)) ∧
      values = (program.lineTicks output.line).map fun tick =>
        output.valueAt program.timeBase tick.position := by
  rw [samples_eq fits, Checks.bind_eq_ok]
  constructor
  · intro sampled
    obtain ⟨_, checked, made⟩ := sampled
    exact ⟨fun tick member => checkSample_eq_ok.1 (Checks.forM_eq_ok.1 checked tick member),
      (Except.ok.inj made).symm⟩
  · intro asked
    obtain ⟨possible, rfl⟩ := asked
    exact ⟨(), Checks.forM_eq_ok.2 fun tick member => checkSample_eq_ok.2 (possible tick member),
      rfl⟩

theorem samples_eq_error (fits : program.nominalLength < UInt64.size) {fault : Fault} :
    output.samples program = .error fault ↔
      ∃ before tick after, program.lineTicks output.line = before ++ tick :: after ∧
        (∀ earlier ∈ before,
          output.CanProduce (output.valueAt program.timeBase earlier.position)) ∧
        ¬ output.CanProduce (output.valueAt program.timeBase tick.position) ∧
        fault = if (output.valueAt program.timeBase tick.position).isFinite then
            .digitalValue output.name (TimeGrid.seconds tick.position program.timeBase)
              (output.valueAt program.timeBase tick.position)
          else .rampValue output.name (TimeGrid.seconds tick.position program.timeBase)
              (output.valueAt program.timeBase tick.position) := by
  have failed : output.samples program = .error fault ↔
      ((program.lineTicks output.line).forM fun tick =>
        output.checkSample program.timeBase tick.position
          (output.valueAt program.timeBase tick.position)) = .error fault := by
    rw [samples_eq fits]
    cases (program.lineTicks output.line).forM fun tick =>
        output.checkSample program.timeBase tick.position
          (output.valueAt program.timeBase tick.position) with
    | error other => exact ⟨fun same => by cases same; rfl, fun same => by cases same; rfl⟩
    | ok checked => exact iff_of_false nofun nofun
  rw [failed, Checks.forM_eq_error]
  simp only [checkSample_eq_ok, checkSample_eq_error]

/-- An output that is raised from zero to seven at a position. -/
def raised (start : Nat) : Output :=
  ⟨"ao/ao0", .analog, 0, .fast, .ofList [⟨start, none, .constant 7, rfl⟩]⟩

/-- Three ticks, of which the last one comes after the last word. -/
def overlong : Program :=
  .compress 1e9 1 [.tick 1e10 true, .tick 1e10 false, .tick 1 true]

end Output

end Metronome
