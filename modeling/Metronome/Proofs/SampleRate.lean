/-
Module: Metronome.Proofs.SampleRate
Purpose: How well the sample period of a ramp keeps the rate that was asked for.
Trusted boundary: none
Main exports:
  TimeGrid.KeepsRate, TimeGrid.samplePeriod_eq_ok_iff, TimeGrid.samplePeriod_keepsRate,
  TimeGrid.samplePeriod_of_multiple, TimeGrid.samplePeriod_of_long, Command.ramp?,
  Experiment.session_keepsRate
-/
import Mathlib
import Metronome.Proofs.Cycles
import Metronome.Proofs.ExactQuotient
import Metronome.Proofs.Registered
import Metronome.Proofs.Reordering

/-!
The positions between two samples are the time base divided by the rate.  Where that is a whole
number, it is computed exactly and taken, up to the last position.  Where it is none, the rate should
be refused.  It is only if the quotient is off by more than a millionth of itself, so that from half
a million positions on every rate is taken.
-/

namespace Metronome

open Number (value closest)

namespace Number

variable {n : Nat} {x : Float}

/-! ### Whole numbers on the grid -/

theorem closest_natCast (n : Nat) : closest n = n := by
  rw [closest, Nat.floor_eq_iff (by positivity)]
  constructor <;> linarith

/-- A double that is finite is not infinite. -/
theorem Nonnegative.ne_infinity (nonneg : Nonnegative x) :
    x.toModel.unpack ≠ .infinity .positive :=
  fun infinite => lt_irrefl _ ((lt_iff_value nonneg nonneg).1 (lt_infinity nonneg infinite))

theorem value_ofWord_last :
    Nonnegative (ofWord TimeGrid.last) ∧ value (ofWord TimeGrid.last) = TimeGrid.last := by
  have unpacked : (ofWord TimeGrid.last).toModel.unpack = float .positive (2 ^ 52) 1 :=
    unpack_ofWord_last
  refine ⟨⟨_, _, ⟨by decide, by decide, Or.inr le_rfl⟩, by decide, unpacked⟩, ?_⟩
  have last : TimeGrid.last = 2 ^ 53 := rfl
  rw [value_of_unpack unpacked, scaled, last]
  norm_num

/-- The nearest whole number of a double is on the grid exactly if it is finite and the closest whole
number of its value is a position. -/
theorem nearest_onGrid (nonneg : Nonnegative x) :
    ¬ ofWord TimeGrid.last < nearest x ↔ closest (value x) ≤ TimeGrid.last := by
  obtain ⟨whole, wholeValue⟩ := nearest_of_nonnegative nonneg
  obtain ⟨lastNonneg, lastValue⟩ := value_ofWord_last
  rw [lt_iff_value lastNonneg whole, not_lt, wholeValue, lastValue, Nat.cast_le]

theorem one_le_nearest (nonneg : Nonnegative x) :
    ¬ nearest x < 1 ↔ 1 ≤ closest (value x) := by
  obtain ⟨whole, wholeValue⟩ := nearest_of_nonnegative nonneg
  rw [lt_iff_value whole nonnegative_one, not_lt, wholeValue, value_one, Nat.one_le_cast]

theorem toWord_nearest (nonneg : Nonnegative x) (onGrid : closest (value x) ≤ TimeGrid.last) :
    toWord (nearest x) = closest (value x) := by
  obtain ⟨whole, wholeValue⟩ := nearest_of_nonnegative nonneg
  have word : TimeGrid.last ≤ UInt64.size - 1 := by decide
  rw [toWord_of_nonnegative whole, wholeValue, Nat.floor_natCast, min_eq_left (by omega)]

end Number

namespace TimeGrid

variable {timeBase rate t : Float} {output : String} {period : Nat}

/-! ### Periods -/

/-- A period keeps a rate: it is a number of positions, with it the samples of a second fill the time
base exactly if any whole number of positions does so, and otherwise they are off by little more than
a millionth of it. -/
structure KeepsRate (timeBase rate : Float) (period : Nat) : Prop where
  pos : 1 ≤ period
  onGrid : period ≤ last
  exact : period * value rate = value timeBase ↔
    ∃ positions : Nat, positions * value rate = value timeBase
  drift : |period * value rate - value timeBase| ≤ period / 999999 * value rate

/-- With a time base and a rate that are whole numbers and not large, a period that keeps the rate is
exact. -/
theorem KeepsRate.exact_of_small {base samples : Nat} (keeps : KeepsRate timeBase rate period)
    (whole : value timeBase = base) (wholeRate : value rate = samples) (small : base < 999998) :
    period * samples = base := by
  have drift := keeps.drift
  rw [whole, wholeRate, div_mul_eq_mul_div] at drift
  have bound : (base : ℚ) ≤ 999997 := by exact_mod_cast Nat.le_of_lt_succ small
  have product : (period * samples : ℚ) = (period * samples : Nat) := by push_cast; rfl
  rw [product] at drift
  obtain ⟨low, high⟩ := abs_le.1 drift
  -- The drift of a period that is not exact would be at least one.
  have apart : |((period * samples : Nat) : Int) - base| < 1 := by
    have distance : |((period * samples : Nat) : ℚ) - base| < 1 := by
      rw [abs_lt]
      constructor <;> linarith
    exact_mod_cast distance
  have equal := Int.abs_lt_one_iff.1 apart
  omega

/-- A rate has a period exactly if it is positive, and the quotient of the time base by it is on the
grid and near to a whole number of positions, of at least one. -/
theorem samplePeriod_eq_ok_iff :
    samplePeriod rate timeBase output t = .ok period ↔
      rate.isFinite = true ∧ ¬ rate ≤ 0 ∧
        ¬ Number.ofWord last < Number.nearest (timeBase / rate) ∧
        ¬ Number.nearest (timeBase / rate) < 1 ∧
        ¬ 1e-6 * Number.atLeast 1 (Number.nearest (timeBase / rate)) <
          (timeBase / rate - Number.nearest (timeBase / rate)).abs ∧
        period = Number.toWord (Number.nearest (timeBase / rate)) := by
  unfold samplePeriod
  by_cases finite : rate.isFinite = true
  · by_cases nonpos : rate ≤ 0
    · simp [nonpos]
    · simp only [finite, nonpos, Bool.not_true, decide_false, Bool.or_self, Bool.false_eq_true,
        if_false, not_false_iff, true_and]
      by_cases beyond : Number.ofWord last < Number.nearest (timeBase / rate)
      · simp [beyond]
      · by_cases none : Number.nearest (timeBase / rate) < 1
        · simp [beyond, none]
        · by_cases off : 1e-6 * Number.atLeast 1 (Number.nearest (timeBase / rate)) <
              (timeBase / rate - Number.nearest (timeBase / rate)).abs
          · simp [beyond, off]
          · simp [beyond, none, off, eq_comm]
  · simp [finite]

/-- The quotient of a time base by a rate that is taken is finite. -/
theorem nonnegative_quotient (base : Number.Nonnegative timeBase)
    (sampled : samplePeriod rate timeBase output t = .ok period) :
    Number.Nonnegative rate ∧ 0 < value rate ∧ Number.Nonnegative (timeBase / rate) ∧
      Number.RoundsTo (value timeBase / value rate) (timeBase / rate) := by
  obtain ⟨finite, above, onGrid, -⟩ := samplePeriod_eq_ok_iff.1 sampled
  obtain ⟨nonneg, pos⟩ :=
    Number.nonnegative_of_pos finite (Number.pos_of_not_nonpos finite above)
  have rounds := Number.div_roundsTo base nonneg pos
  refine ⟨nonneg, pos, ?_, rounds⟩
  cases rounds with
  | finite quotient _ => exact quotient
  | infinite unpacked _ =>
      -- An infinite quotient is its own nearest number, and would have been refused.
      have kept : Number.nearest (timeBase / rate) = timeBase / rate := by
        rw [Number.nearest, unpacked]
      rw [kept] at onGrid
      exact absurd (Number.lt_infinity Number.value_ofWord_last.1 unpacked) onGrid

/-- Of a positive rate only the quotient of the time base by it matters. -/
theorem samplePeriod_of_quotient (finite : rate.isFinite = true) (above : ¬ rate ≤ 0)
    (quotient : Number.Nonnegative (timeBase / rate)) :
    samplePeriod rate timeBase output t = .ok period ↔
      period = closest (value (timeBase / rate)) ∧ 1 ≤ period ∧ period ≤ last ∧
        ¬ 1e-6 * Number.atLeast 1 (Number.nearest (timeBase / rate)) <
          (timeBase / rate - Number.nearest (timeBase / rate)).abs := by
  rw [samplePeriod_eq_ok_iff, Number.nearest_onGrid quotient, Number.one_le_nearest quotient]
  constructor
  · rintro ⟨-, -, onGrid, one, near, rfl⟩
    rw [Number.toWord_nearest quotient onGrid]
    exact ⟨rfl, one, onGrid, near⟩
  · rintro ⟨rfl, one, onGrid, near⟩
    exact ⟨finite, above, onGrid, one, near, (Number.toWord_nearest quotient onGrid).symm⟩

/-- A period keeps the rate that it is taken for. -/
theorem samplePeriod_keepsRate (base : Number.Nonnegative timeBase) (one : 1 ≤ value timeBase)
    (sampled : samplePeriod rate timeBase output t = .ok period) :
    KeepsRate timeBase rate period := by
  obtain ⟨finite, above, -⟩ := samplePeriod_eq_ok_iff.1 sampled
  obtain ⟨nonneg, pos, quotient, rounds⟩ := nonnegative_quotient base sampled
  obtain ⟨rfl, least, onGrid, near⟩ :=
    (samplePeriod_of_quotient finite above quotient).1 sampled
  have basePos := zero_lt_one.trans_le one
  refine ⟨least, onGrid, ⟨fun same => ⟨_, same⟩, ?_⟩, ?_⟩
  · -- A whole number of positions is computed without an error, and nearest to itself.
    rintro ⟨positions, same⟩
    rcases Number.value_div_of_multiple base nonneg basePos same.symm with unpacked | ⟨-, computed⟩
    · exact absurd unpacked quotient.ne_infinity
    · rw [computed, Number.closest_natCast, same]
  · -- The check bounds the distance from the computed quotient, which is itself off by a rounding.
    have word : last ≤ 2 ^ 64 := by decide
    have whole := Number.tolerated_near quotient (by omega) near
    have count : (1 : ℚ) ≤ closest (value (timeBase / rate)) := by exact_mod_cast least
    have exact : value timeBase = value timeBase / value rate * value rate := by field_simp
    cases rounds with
    | infinite unpacked _ => exact absurd unpacked quotient.ne_infinity
    | finite _ rounded =>
        have close := rounded.trans (Number.spacing_le (div_nonneg base.value_nonneg pos.le))
        have small := Number.least_le
        have drift := Number.near_trans whole (close.trans (by
          have nonneg := div_nonneg base.value_nonneg pos.le
          generalize (2 : ℚ) ^ (-1074 : Int) = least at *
          linarith))
        rw [max_eq_right count] at drift
        rw [exact, ← sub_mul, abs_mul, abs_of_pos pos]
        exact mul_le_mul_of_nonneg_right drift pos.le

/-- A rate of which the time base is a multiple is taken, and its period is exact. -/
theorem samplePeriod_of_multiple (base : Number.Nonnegative timeBase)
    (finite : rate.isFinite = true) (above : ¬ rate ≤ 0)
    (multiple : period * value rate = value timeBase) (one : 1 ≤ period)
    (onGrid : period ≤ last) : samplePeriod rate timeBase output t = .ok period := by
  obtain ⟨nonneg, pos⟩ :=
    Number.nonnegative_of_pos finite (Number.pos_of_not_nonpos finite above)
  have count : (1 : ℚ) ≤ period := by exact_mod_cast one
  have most : (period : ℚ) ≤ 2 ^ 53 := by exact_mod_cast onGrid
  have basePos : 0 < value timeBase := multiple ▸ mul_pos (zero_lt_one.trans_le count) pos
  have ratio : value timeBase / value rate = period := by
    rw [← multiple]
    field_simp
  have rounds := Number.div_roundsTo base nonneg pos
  rw [ratio] at rounds
  cases rounds with
  | infinite _ large => linarith
  | finite quotient _ =>
      rcases Number.value_div_of_multiple base nonneg basePos multiple.symm with
        unpacked | ⟨-, computed⟩
      · exact absurd unpacked quotient.ne_infinity
      · have whole : closest (value (timeBase / rate)) = period := by
          rw [computed, Number.closest_natCast]
        have word : last ≤ 2 ^ 64 := by decide
        refine (samplePeriod_of_quotient finite above quotient).2
          ⟨whole.symm, one, onGrid, Number.tolerated_of_near quotient (by omega) ?_⟩
        rw [whole, computed, sub_self, abs_zero]
        positivity

/-- From somewhat more than half a million positions on every rate is taken. -/
theorem samplePeriod_of_long (base : Number.Nonnegative timeBase)
    (finite : rate.isFinite = true) (above : ¬ rate ≤ 0)
    (long : 600000 * value rate ≤ value timeBase)
    (short : value timeBase ≤ 2 ^ 52 * value rate) :
    ∃ period, samplePeriod rate timeBase output t = .ok period := by
  obtain ⟨nonneg, pos⟩ :=
    Number.nonnegative_of_pos finite (Number.pos_of_not_nonpos finite above)
  rw [← le_div_iff₀ pos] at long
  rw [← div_le_iff₀ pos] at short
  cases Number.div_roundsTo base nonneg pos with
  | infinite _ large => linarith
  | finite quotient rounded =>
      have close := rounded.trans (Number.spacing_le (by linarith))
      have small := Number.least_le
      obtain ⟨below, up⟩ := abs_le.1 close
      have near := Number.closest_near quotient.value_nonneg
      obtain ⟨low, high⟩ := abs_le.1 near
      have least : (590000 : ℚ) ≤ closest (value (timeBase / rate)) := by linarith
      have most : (closest (value (timeBase / rate)) : ℚ) ≤ 2 ^ 53 := by linarith
      have onGrid : closest (value (timeBase / rate)) ≤ last := by exact_mod_cast most
      have one : 1 ≤ closest (value (timeBase / rate)) := by
        have large : 590000 ≤ closest (value (timeBase / rate)) := by exact_mod_cast least
        omega
      have word : last ≤ 2 ^ 64 := by decide
      refine ⟨_, (samplePeriod_of_quotient finite above quotient).2
        ⟨rfl, one, onGrid, Number.tolerated_of_near quotient (by omega) ?_⟩⟩
      -- No number is more than a half from the nearest whole one, and the tolerance is more.
      rw [abs_sub_comm]
      refine near.trans ?_
      rw [max_eq_right (by linarith)]
      linarith

end TimeGrid

/-! ### Ramps -/

/-- A ramp that a command asks for. -/
structure RampRequest where
  device : String
  channel : String
  instruction : Instruction
  t : Float
  timing : RampTiming

/-- The ramp that a command asks for, if it asks for one. -/
def Command.ramp? : Command → Option RampRequest
  | .linear device channel t timing start finish =>
      some ⟨device, channel, .linear start finish, t, timing⟩
  | .exponential device channel t timing start finish offset =>
      some ⟨device, channel, .exponential start finish offset, t, timing⟩
  | .sine device channel t timing freq amplitude phase offset =>
      some ⟨device, channel, .sine freq amplitude phase offset, t, timing⟩
  | .instruction device channel given t (some timing) => some ⟨device, channel, given, t, timing⟩
  | _ => none

namespace Experiment

variable {before after new : Experiment} {command : Command} {request : RampRequest}

/-- A ramp that is taken changes the channel that it is asked for on, by its placement. -/
theorem after_ramp (named : before.Named) (asks : command.ramp? = some request)
    (taken : before.after command = (after, none)) :
    ∃ channel added, before.channel request.device request.channel = .ok channel ∧
      channel.place request.instruction request.t (some request.timing) = .ok added ∧
      after = before.adjust request.device request.channel (Channel.insert · added) := by
  have performed := after_eq_ok.1 taken
  -- The commands for single shapes check the kind of the device before they record.
  have typed : ∀ {device name kind instruction t timing},
      (Recorder.atomic fun experiment =>
        experiment.recordTyped device name kind instruction t timing).run before =
          (.ok (), after) →
      ∃ channel added, before.channel device name = .ok channel ∧
        channel.place instruction t timing = .ok added ∧
        after = before.adjust device name (Channel.insert · added) := by
    intro device name kind instruction t timing made
    obtain ⟨channel, added, found, placed, rfl⟩ :=
      (recordTyped_eq_ok named).1 (Recorder.run_atomic_eq_ok.1 made)
    exact ⟨channel, added, (typedChannel_eq_ok.1 found).1, placed, rfl⟩
  cases command with
  | linear device channel t timing start finish =>
      cases asks
      exact typed performed
  | exponential device channel t timing start finish offset =>
      cases asks
      exact typed performed
  | sine device channel t timing freq amplitude phase offset =>
      cases asks
      exact typed performed
  | instruction device channel instruction t timing =>
      cases timing with
      | none => cases asks
      | some timing =>
          cases asks
          exact (record_eq_ok named).1 (Recorder.run_atomic_eq_ok.1 performed)
  | _ => cases asks

/-- Whatever was recorded before, a ramp that is taken has a sample period that keeps its rate.  The
period is exact if the time base is a whole number of periods of the rate, and only then.  Every
other rate is refused or kept up to little more than a millionth of a period. -/
theorem session_keepsRate {clockName : String} {minPeriod : Float} {settings : Settings}
    (made : create clockName minPeriod settings = .ok new) (commands : List Command)
    (asks : command.ramp? = some request)
    (taken : (new.session commands).after command = (after, none)) :
    ∃ channel added span,
      (new.session commands).channel request.device request.channel = .ok channel ∧
      after.channel request.device request.channel = .ok (channel.insert added) ∧
      added.instruction = request.instruction ∧ added.ramp = some span ∧
      TimeGrid.KeepsRate settings.timeBase request.timing.rate span.period := by
  obtain ⟨base, one⟩ := Settings.timeBase_of_check (create_eq_ok.1 made).1
  obtain ⟨channel, added, found, placed, rfl⟩ :=
    after_ramp (session_rules made commands).1 asks taken
  have admits := Channel.place_eq_ok.1 placed
  obtain ⟨span, ramp, spanned⟩ := admits.ramp rfl
  obtain ⟨-, -, -, length, -, -, -, -, sampled⟩ := Channel.rampSpan_eq_ok_iff.1 spanned
  rw [(session_registered made commands).timeBase found] at sampled
  refine ⟨channel, added, span, found, ?_, admits.holds, ramp,
    TimeGrid.samplePeriod_keepsRate base one sampled⟩
  rw [channel_adjust_self, found]
  rfl

/-- A setup with one analog output. -/
def singleOutput : List Command :=
  [.addDevice "ao" .analogCard .fast, .addAnalogChannel "ao" 0 0]

/-- A ramp of one second with a rate, on the one output. -/
def secondRamp (rate : Float) : Command :=
  .linear "ao" "ao0" 0 ⟨1, rate⟩ 0 1

/-- A hundred million samples in a second are ten positions apart. -/
theorem secondRamp_keepsRate : ∃ new after channel added span,
    create "pb0" 1e-7 {} = .ok new ∧
      (new.session singleOutput).after (secondRamp 1e8) = (after, none) ∧
      (new.session singleOutput).channel "ao" "ao0" = .ok channel ∧
      after.channel "ao" "ao0" = .ok (channel.insert added) ∧
      added.instruction = .linear 0 1 ∧ added.ramp = some span ∧
      TimeGrid.KeepsRate ({} : Settings).timeBase 1e8 span.period := by
  have succeeds : (create "pb0" 1e-7 {}).toOption.map (fun new =>
      ((new.session singleOutput).after (secondRamp 1e8)).2.isNone) = some true := by
    decide +kernel
  obtain ⟨new, created, noFault⟩ := Option.map_eq_some_iff.1 succeeds
  have made := Checks.toOption_eq_some_iff.1 created
  have taken : (new.session singleOutput).after (secondRamp 1e8) =
      (((new.session singleOutput).after (secondRamp 1e8)).1, none) :=
    Prod.ext rfl (Option.isNone_iff_eq_none.1 noFault)
  have asks : (secondRamp 1e8).ramp? = some ⟨"ao", "ao0", .linear 0 1, 0, ⟨1, 1e8⟩⟩ := rfl
  obtain ⟨channel, added, span, found, changed, holds, ramp, keeps⟩ :=
    session_keepsRate made singleOutput asks taken
  exact ⟨new, _, channel, added, span, made, taken, found, changed, holds, ramp, keeps⟩

/-- Seven samples in a second are no whole number of nanoseconds apart.  The rate is accepted, and
seven periods last a nanosecond longer than the second. -/
theorem secondRamp_drifts : ∃ new after channel,
    create "pb0" 1e-7 {} = .ok new ∧
      (new.session singleOutput).after (secondRamp 7) = (after, none) ∧
      after.channel "ao" "ao0" = .ok channel ∧
      channel.timeline.items.map Placement.ramp = [some ⟨1000000000, 142857143⟩] ∧
      142857143 * value 7 ≠ value ({} : Settings).timeBase := by
  have run : (create "pb0" 1e-7 {}).toOption.map (fun new =>
      (((new.session singleOutput).after (secondRamp 7)).2.isNone,
        (((new.session singleOutput).after (secondRamp 7)).1.channel "ao" "ao0").toOption.map
          fun channel => channel.timeline.items.map Placement.ramp)) =
      some (true, some [some ⟨1000000000, 142857143⟩]) := by
    decide +kernel
  obtain ⟨new, created, facts⟩ := Option.map_eq_some_iff.1 run
  obtain ⟨noFault, ramps⟩ := Prod.mk.inj facts
  obtain ⟨channel, found, ramp⟩ := Option.map_eq_some_iff.1 ramps
  refine ⟨new, _, channel, Checks.toOption_eq_some_iff.1 created,
    Prod.ext rfl (Option.isNone_iff_eq_none.1 noFault), Checks.toOption_eq_some_iff.1 found, ramp,
    ?_⟩
  have seven : (7 : Float).toModel.unpack = Number.float .positive 7881299347898368 (-50) := rfl
  have base : ({} : Settings).timeBase.toModel.unpack =
      Number.float .positive 8388608000000000 (-23) := rfl
  rw [Number.value_of_unpack base, Number.value_of_unpack seven, Number.scaled, Number.scaled]
  norm_num

end Experiment

end Metronome
