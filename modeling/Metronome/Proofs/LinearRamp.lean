/-
Module: Metronome.Proofs.LinearRamp
Purpose: A linear ramp never turns back, stays between its first value and a last one, and holds the
  last one, which is the value it was asked to end with only if the arithmetic leads there.
Trusted boundary: none
Main exports:
  Number.Between, Placement.IsLinear, Output.Shows, Output.Moves, Output.linear_ramp,
  Output.falling_overshoots
-/
import Metronome.Proofs.Fraction
import Metronome.Proofs.Sampling

/-!
The value of a linear ramp is the start plus a part of the difference of its ends, and the part is
computed from positions anew at each tick.  Each of the operations is the nearest double of its
exact result, and that is monotone: a later tick has passed no smaller a fraction of the domain, the
part of the difference has grown, or it has shrunk if the difference is negative, and so has the
sum.  With nothing passed the sum is the start, with everything the start plus the whole difference.

The whole difference is rounded itself, so that start and difference together need not be the end.
-/

namespace Metronome

namespace Number

variable {u : Float}

/-- A value in the closed interval between two others, in whichever order they are. -/
def Between (first last x : Float) : Prop :=
  (first ≤ x ∧ x ≤ last) ∨ (last ≤ x ∧ x ≤ first)

/-- A part of a finite difference is finite. -/
theorem part_spec {difference : Float} (finite : difference.isFinite = true) (part : Nonnegative u)
    (le : value u ≤ 1) : (difference * u).isFinite = true ∧
      value (difference * u) = nearestDouble (value difference * value u) := by
  have result := mul_result finite part.isFinite
  have magnitude : |value difference * value u| ≤ |value difference| := by
    rw [abs_mul, abs_of_nonneg part.value_nonneg]
    exact mul_le_of_le_one_right (abs_nonneg _) le
  have product := result.isFinite_of_le finite magnitude
  exact ⟨product, result.value_eq product⟩

end Number

namespace Placement

open Number (nearestDouble Nonnegative Result)

/-- A linear ramp between finite values with a finite difference. -/
structure IsLinear (placement : Placement) (span : RampSpan) (start finish : Float) : Prop where
  ramp : placement.ramp = some span
  shape : placement.instruction.shape = .linear
  first : placement.instruction.argument "start" 0 = start
  last : placement.instruction.argument "end" 0 = finish
  startFinite : start.isFinite = true
  finishFinite : finish.isFinite = true
  differenceFinite : (finish - start).isFinite = true
  /-- Positions are words. -/
  word : span.stop < 2 ^ 64

/-- The fraction of the domain that has passed at a position. -/
def fraction (placement : Placement) (span : RampSpan) (position : Nat) : Float :=
  Number.clampUnit (Number.ofWord (position - placement.start) /
    Number.ofWord (span.stop - placement.start))

namespace IsLinear

variable {placement : Placement} {span : RampSpan} {start finish : Float} {position later : Nat}
  {timeBase : Float}

theorem length_pos (linear : placement.IsLinear span start finish) :
    1 ≤ span.stop - placement.start := by
  have nonempty := (placement.fits_of_ramp linear.ramp).1
  omega

/-- The value is computed from the fraction alone. -/
theorem value_eq (linear : placement.IsLinear span start finish)
    (started : placement.start ≤ position) :
    placement.value timeBase position =
      start + (finish - start) * placement.fraction span position := by
  rw [Placement.value_of_ramp linear.ramp started, Instruction.evaluate, linear.shape]
  dsimp only
  rw [linear.first, linear.last, fraction]

theorem fraction_le_one (linear : placement.IsLinear span start finish)
    (word : position < 2 ^ 64) :
    Nonnegative (placement.fraction span position) ∧
      Number.value (placement.fraction span position) ≤ 1 := by
  have stopWord := linear.word
  obtain ⟨nonneg, same⟩ := Number.fraction_spec linear.length_pos
    (show span.stop - placement.start < 2 ^ 64 by omega)
    (show position - placement.start < 2 ^ 64 by omega)
  refine ⟨nonneg, ?_⟩
  rw [fraction, same]
  exact min_le_left ..

/-- The value is the double nearest to the sum of the start and the part of the difference. -/
theorem value_result (linear : placement.IsLinear span start finish)
    (started : placement.start ≤ position) (word : position < 2 ^ 64) :
    Result (Number.value start +
        nearestDouble (Number.value (finish - start) *
          Number.value (placement.fraction span position)))
      (placement.value timeBase position) := by
  obtain ⟨nonneg, le⟩ := linear.fraction_le_one word
  obtain ⟨finite, same⟩ := Number.part_spec linear.differenceFinite nonneg le
  rw [linear.value_eq started, ← same]
  exact Number.add_result linear.startFinite finite

/-- What the ramp holds is the double nearest to the sum of the start and the difference. -/
theorem held_result (linear : placement.IsLinear span start finish) :
    Result (Number.value start + Number.value (finish - start)) (start + (finish - start)) :=
  Number.add_result linear.startFinite linear.differenceFinite

theorem difference_nonneg (linear : placement.IsLinear span start finish)
    (rising : start ≤ finish) : 0 ≤ Number.value (finish - start) := by
  have result := Number.sub_result linear.finishFinite linear.startFinite
  rw [result.value_eq linear.differenceFinite]
  rw [Number.le_iff_value linear.startFinite linear.finishFinite] at rising
  exact Number.nearestDouble_nonneg (sub_nonneg.2 rising)

theorem difference_nonpos (linear : placement.IsLinear span start finish)
    (falling : finish ≤ start) : Number.value (finish - start) ≤ 0 := by
  have result := Number.sub_result linear.finishFinite linear.startFinite
  rw [result.value_eq linear.differenceFinite, ← Number.nearestDouble_zero]
  rw [Number.le_iff_value linear.finishFinite linear.startFinite] at falling
  exact Number.nearestDouble_mono (sub_nonpos.2 falling)

/-- The values of a rising ramp do not fall. -/
theorem rises (linear : placement.IsLinear span start finish) (rising : start ≤ finish)
    (started : placement.start ≤ position) (laterWord : later < 2 ^ 64) (le : position ≤ later) :
    placement.value timeBase position ≤ placement.value timeBase later := by
  have stopWord := linear.word
  refine (linear.value_result started (le.trans_lt laterWord)).le
    (linear.value_result (started.trans le) laterWord) ?_
  refine add_le_add_right (Number.nearestDouble_mono ?_) _
  refine mul_le_mul_of_nonneg_left ?_ (linear.difference_nonneg rising)
  exact Number.fraction_mono linear.length_pos (by omega) (by omega) (by omega)

/-- The values of a falling ramp do not rise. -/
theorem falls (linear : placement.IsLinear span start finish) (falling : finish ≤ start)
    (started : placement.start ≤ position) (laterWord : later < 2 ^ 64) (le : position ≤ later) :
    placement.value timeBase later ≤ placement.value timeBase position := by
  have stopWord := linear.word
  refine (linear.value_result (started.trans le) laterWord).le
    (linear.value_result started (le.trans_lt laterWord)) ?_
  refine add_le_add_right (Number.nearestDouble_mono ?_) _
  refine mul_le_mul_of_nonpos_left ?_ (linear.difference_nonpos falling)
  exact Number.fraction_mono linear.length_pos (by omega) (by omega) (by omega)

/-- The values lie between the start and what the ramp holds. -/
theorem inside (linear : placement.IsLinear span start finish)
    (started : placement.start ≤ position) (word : position < 2 ^ 64) :
    Number.Between start (start + (finish - start)) (placement.value timeBase position) := by
  have result : Result _ (placement.value timeBase position) := linear.value_result started word
  have first := Number.result_value linear.startFinite
  have last := linear.held_result
  obtain ⟨nonneg, le⟩ := linear.fraction_le_one word
  have least := nonneg.value_nonneg
  have whole := Number.nearestDouble_value linear.differenceFinite
  rcases le_total (Number.value start) (Number.value finish) with rising | falling
  · have positive := linear.difference_nonneg
      ((Number.le_iff_value linear.startFinite linear.finishFinite).2 rising)
    refine Or.inl ⟨first.le result ?_, result.le last ?_⟩
    · exact le_add_of_nonneg_right (Number.nearestDouble_nonneg (mul_nonneg positive least))
    · refine add_le_add_right ?_ _
      exact (Number.nearestDouble_mono (mul_le_of_le_one_right positive le)).trans whole.le
  · have negative := linear.difference_nonpos
      ((Number.le_iff_value linear.finishFinite linear.startFinite).2 falling)
    refine Or.inr ⟨last.le result ?_, result.le first ?_⟩
    · refine add_le_add_right ?_ _
      exact whole.ge.trans (Number.nearestDouble_mono (le_mul_of_le_one_right negative le))
    · refine add_le_of_nonpos_right ?_
      rw [← Number.nearestDouble_zero]
      exact Number.nearestDouble_mono (mul_nonpos_of_nonpos_of_nonneg negative least)

/-- From the end of the ramp on the values are what the ramp holds. -/
theorem holds (linear : placement.IsLinear span start finish) (word : position < 2 ^ 64)
    (past : span.stop ≤ position) :
    (placement.value timeBase position == start + (finish - start)) = true := by
  have started := (Nat.le_of_lt (placement.fits_of_ramp linear.ramp).1).trans past
  have result : Result _ (placement.value timeBase position) := linear.value_result started word
  have one : Number.value (placement.fraction span position) = 1 :=
    Number.fraction_eq_one linear.length_pos (by omega) (by omega)
  rw [one, mul_one, Number.nearestDouble_value linear.differenceFinite] at result
  exact result.beq linear.held_result rfl

end IsLinear

end Placement

namespace Output

variable {output : Output} {program : Program} {placement : Placement} {span : RampSpan}
  {start finish last sample : Float} {position : Nat}

/-- An output shows a sample of an instruction at a position: its line has a tick there, and the
instruction is the last one that has started. -/
structure Shows (output : Output) (program : Program) (placement : Placement) (position : Nat)
    (sample : Float) : Prop where
  tick : ∃ tick ∈ program.lineTicks output.line, tick.position = position
  /-- Positions are words. -/
  word : position < 2 ^ 64
  current : output.current position = some placement
  asked : sample = output.valueAt program.timeBase position

/-- The sample is the value of the instruction. -/
theorem Shows.sample_eq (shows : output.Shows program placement position sample) :
    sample = placement.value program.timeBase position := by
  rw [shows.asked, valueAt, shows.current]
  rfl

/-- What is shown has started. -/
theorem Shows.started (shows : output.Shows program placement position sample) :
    placement.start ≤ position :=
  ((Chronology.latest_eq_some_iff output.timeline.increasing).1 shows.current).2.1

/-- A sample of a linear ramp is a number or infinite. -/
theorem Shows.definite (shows : output.Shows program placement position sample)
    (linear : placement.IsLinear span start finish) : Number.Definite sample.toModel.unpack := by
  rw [shows.sample_eq]
  exact (linear.value_result shows.started shows.word).1

/-- What is sampled while an instruction is the last one that has started is shown of it. -/
theorem shows_of_samples (fits : program.nominalLength < UInt64.size) {values : List Float}
    (sampled : output.samples program = .ok values)
    {tick : Tick} (seen : (tick, sample) ∈ (program.lineTicks output.line).zip values)
    (word : tick.position < 2 ^ 64) (current : output.current tick.position = some placement) :
    output.Shows program placement tick.position sample := by
  rw [((samples_eq_ok fits).1 sampled).2, ← List.map_prod_left_eq_zip] at seen
  obtain ⟨_, ticks, same⟩ := List.mem_map.1 seen
  obtain ⟨rfl, rfl⟩ := Prod.mk.inj same
  exact ⟨⟨_, ticks, rfl⟩, word, current, rfl⟩

/-- What an output shows of a ramp that goes from a start towards a finish, as far as a last value:
it never turns back, it keeps between the start and the last value, and it has the last value from
the end of the ramp on. -/
structure Moves (output : Output) (program : Program) (placement : Placement) (span : RampSpan)
    (start finish last : Float) : Prop where
  rises : start ≤ finish → ∀ first second x y, output.Shows program placement first x →
    output.Shows program placement second y → first ≤ second → x ≤ y
  falls : ¬ start ≤ finish → ∀ first second x y, output.Shows program placement first x →
    output.Shows program placement second y → first ≤ second → y ≤ x
  inside : ∀ position x, output.Shows program placement position x → Number.Between start last x
  holds : ∀ position x, output.Shows program placement position x → span.stop ≤ position →
    (x == last) = true

/-- What an output shows of a linear ramp moves as far as the sum of start and difference. -/
theorem moves_held (linear : placement.IsLinear span start finish) :
    output.Moves program placement span start finish (start + (finish - start)) where
  rises rising first second x y shows later le := by
    rw [shows.sample_eq, later.sample_eq]
    exact linear.rises rising shows.started later.word le
  falls falling first second x y shows later le := by
    rw [shows.sample_eq, later.sample_eq]
    exact linear.falls (Number.le_of_not_le linear.startFinite linear.finishFinite falling)
      shows.started later.word le
  inside position x shows := by
    rw [shows.sample_eq]
    exact linear.inside shows.started shows.word
  holds position x shows past := by
    rw [shows.sample_eq]
    exact linear.holds shows.word past

/-- An equal last value is as good. -/
theorem Moves.congr (moves : output.Moves program placement span start finish last)
    (linear : placement.IsLinear span start finish) {other : Float}
    (lastDefinite : Number.Definite last.toModel.unpack)
    (otherDefinite : Number.Definite other.toModel.unpack) (same : (last == other) = true) :
    output.Moves program placement span start finish other where
  rises := moves.rises
  falls := moves.falls
  inside position x shows := by
    have definite := shows.definite linear
    obtain ⟨below, above⟩ := Number.le_congr definite lastDefinite otherDefinite same
    have inside := moves.inside position x shows
    rwa [Number.Between, below, above] at inside
  holds position x shows past := by
    have definite := shows.definite linear
    have held := moves.holds position x shows past
    exact (Number.beq_congr definite lastDefinite otherDefinite held).2 same

/-- What an output shows of a linear ramp never turns back, on every program.  It keeps between the
start of the ramp and the sum of the start and the difference of its ends, as doubles, and it has
this sum from the end of the ramp on.  If the sum is the finish of the ramp, it therefore keeps
within the ramp and has its finish in the end, and where a tick comes from the end of the ramp on it
does so only then. -/
theorem linear_ramp (linear : placement.IsLinear span start finish) (output : Output)
    (program : Program) :
    output.Moves program placement span start finish (start + (finish - start)) ∧
    ((start + (finish - start) == finish) = true →
      output.Moves program placement span start finish finish) ∧
    ∀ position sample, output.Shows program placement position sample → span.stop ≤ position →
      (output.Moves program placement span start finish finish ↔
        (start + (finish - start) == finish) = true) := by
  have heldDefinite := linear.held_result.1
  have finishDefinite := (Number.definite_of_isFinite linear.finishFinite).1
  have reaches : (start + (finish - start) == finish) = true →
      output.Moves program placement span start finish finish := fun same =>
    (moves_held linear).congr linear heldDefinite finishDefinite same
  refine ⟨moves_held linear, reaches, fun position sample shows past => ⟨fun moves => ?_, reaches⟩⟩
  have definite := shows.definite linear
  have held := (moves_held linear).holds position sample shows past
  exact (Number.beq_congr definite heldDefinite finishDefinite held).1
    (moves.holds position sample shows past)

/-- A ramp from zero to one gets there. -/
theorem twoSamples_moves : ∃ program sample,
    Pseudoclock.bare.program [twoSamples "ao/ao0" 0] 40 {} = .ok program ∧
      (twoSamples "ao/ao0" 0).Shows program (.twoSamples 0) 20 sample ∧
      (twoSamples "ao/ao0" 0).Moves program (.twoSamples 0) ⟨20, 10⟩ 0 1 1 := by
  have run : (do
      let program ← Pseudoclock.bare.program [twoSamples "ao/ao0" 0] 40 {}
      return decide (∃ tick ∈ program.lineTicks .fast, tick.position = 20) :
        Except Fault Bool).toOption = some true := by
    decide +kernel
  obtain ⟨program, made, ticked⟩ := Checks.bind_eq_ok.1 (Checks.toOption_eq_some_iff.1 run)
  have linear : (Placement.twoSamples 0).IsLinear ⟨20, 10⟩ 0 1 :=
    ⟨rfl, rfl, rfl, rfl, rfl, rfl, by decide +kernel, by decide⟩
  have shows : (twoSamples "ao/ao0" 0).Shows program (.twoSamples 0) 20 _ :=
    ⟨of_decide_eq_true (Except.ok.inj ticked), by decide, rfl, rfl⟩
  have reaches := (linear_ramp linear (twoSamples "ao/ao0" 0) program).2.2 20 _ shows (by decide)
  exact ⟨program, _, made, shows, reaches.2 (by decide +kernel)⟩

/-- An output with a ramp of two samples from 6.1 down to -10. -/
def falling : Output :=
  ⟨"ao/ao0", .analog, 0, .fast, .ofList [⟨0, some ⟨20, 10⟩, .linear 6.1 (-10), rfl, by decide,
    by decide⟩]⟩

/-- The sample at the end of the ramp is less than the value that the ramp ends with, and so it is
outside the ramp. -/
theorem falling_overshoots : ∃ program placement sample,
    Pseudoclock.bare.program [falling] 40 {} = .ok program ∧
      falling.timeline.items = [placement] ∧ placement.IsLinear ⟨20, 10⟩ 6.1 (-10) ∧
      falling.Shows program placement 20 sample ∧ (sample == -10.000000000000002) = true ∧
      (sample == -10) = false ∧ ¬ Number.Between 6.1 (-10) sample ∧
      ¬ falling.Moves program placement ⟨20, 10⟩ 6.1 (-10) (-10) := by
  have run : (do
      let program ← Pseudoclock.bare.program [falling] 40 {}
      let sample := falling.valueAt program.timeBase 20
      return (decide (∃ tick ∈ program.lineTicks .fast, tick.position = 20),
        sample == -10.000000000000002, sample == -10, decide (6.1 ≤ sample),
        decide (-10 ≤ sample)) :
        Except Fault (Bool × Bool × Bool × Bool × Bool)).toOption =
      some (true, true, false, false, false) := by
    decide +kernel
  obtain ⟨program, made, facts⟩ := Checks.bind_eq_ok.1 (Checks.toOption_eq_some_iff.1 run)
  obtain ⟨ticked, rest⟩ := Prod.mk.inj (Except.ok.inj facts)
  obtain ⟨isBelow, rest⟩ := Prod.mk.inj rest
  obtain ⟨notFinish, rest⟩ := Prod.mk.inj rest
  obtain ⟨notAbove, notInside⟩ := Prod.mk.inj rest
  have outside : ¬ Number.Between 6.1 (-10) (falling.valueAt program.timeBase 20) := by
    rintro (⟨above, -⟩ | ⟨inside, -⟩)
    · exact of_decide_eq_false notAbove above
    · exact of_decide_eq_false notInside inside
  have shows : falling.Shows program _ 20 _ :=
    ⟨of_decide_eq_true ticked, by decide, rfl, rfl⟩
  exact ⟨program, _, _, made, rfl,
    ⟨rfl, rfl, rfl, rfl, rfl, rfl, by decide +kernel, by decide⟩, shows, isBelow, notFinish,
    outside, fun moves => outside (moves.inside 20 _ shows)⟩

end Output

end Metronome
