/-
Module: Metronome.Proofs.Vacancy
Purpose: A channel takes an instruction exactly where its timeline has room for it.
Trusted boundary: none
Main exports:
  Placement.Covers, Placement.clears_iff, Timeline.Vacant, Timeline.overlapping?_mem,
  Channel.Valid, Channel.Requested, Channel.place_of_valid, Channel.place_iff_vacant
-/
import Metronome.Proofs.Lookup
import Metronome.Proofs.Placing

/-!
An instruction whose own data is valid has one placement that it asks for, and all that is left to
decide is whether the timeline has room there.  A ramp occupies its domain without the end, and a
constant a single position, so that room is a condition on starts and domains, to be met by every
instruction on the timeline and not by the neighbours alone.
-/

namespace Metronome

/-- The domain of a ramp contains a position: its start is in it and its end is not. -/
def Placement.Covers (placement : Placement) (position : Nat) : Prop :=
  ∃ span, placement.ramp = some span ∧ placement.start ≤ position ∧ position < span.stop

/-- A ramp reaches past the positions before its stop, and a constant past none. -/
theorem Placement.covers_iff_of_start_lt {placement : Placement} {position : Nat}
    (started : placement.start < position) :
    placement.Covers position ↔ position < placement.stop := by
  rw [Covers, stop]
  cases placement.ramp with
  | none => simp [Nat.le_of_lt started]
  | some span => simp [Nat.le_of_lt started]

/-- Two placements keep apart exactly if they start at different positions and neither is a ramp
whose domain contains the start of the other. -/
theorem Placement.clears_iff {first second : Placement} :
    first.Clears second ↔ first.start ≠ second.start ∧ ¬ first.Covers second.start ∧
      ¬ second.Covers first.start := by
  have later : ∀ {placement : Placement} {position : Nat}, position < placement.start →
      ¬ placement.Covers position := by
    rintro placement position before ⟨span, -, started, -⟩
    omega
  rw [Clears]
  refine and_congr_right fun distinct => ?_
  -- Only the earlier of the two can be under way where the other starts.
  rcases Nat.lt_or_gt_of_ne distinct with before | after
  · rw [covers_iff_of_start_lt before, and_iff_left (later before)]
    simp [before, Nat.lt_asymm before]
  · rw [covers_iff_of_start_lt after, and_iff_right (later after)]
    simp [after, Nat.lt_asymm after]

namespace Timeline

variable {timeline : Timeline} {added present : Placement}

/-- A timeline has room for a placement: no instruction on it starts there or is a ramp that is
under way there, and if the new one is a ramp, none starts in its domain. -/
def Vacant (timeline : Timeline) (added : Placement) : Prop :=
  ∀ present ∈ timeline.items, present.start ≠ added.start ∧ ¬ present.Covers added.start ∧
    ¬ added.Covers present.start

/-- The search for a collision finds none exactly if there is room. -/
theorem overlapping?_eq_none_iff_vacant (apart : timeline.Apart) :
    timeline.overlapping? added = none ↔ timeline.Vacant added := by
  simp only [overlapping?_eq_none_iff apart, Vacant, Placement.clears_iff]

/-- What the search finds is on the timeline and is in the way. -/
theorem overlapping?_mem (found : timeline.overlapping? added = some present) :
    present ∈ timeline.items ∧ ¬ present.Clears added := by
  simp only [overlapping?, Option.or_eq_some_iff, Option.or_eq_none_iff,
    Option.filter_eq_some_iff, decide_eq_true_eq, Bool.and_eq_true] at found
  rcases found with (same | ⟨-, next, early⟩) | ⟨-, previous, -, late⟩
  · obtain ⟨member, start⟩ := Ordered.find?_eq_some_iff.1 same
    exact ⟨member, fun clears => clears.1 start⟩
  · obtain ⟨member, after, -⟩ := Ordered.next?_eq_some next
    exact ⟨member, fun clears => absurd (clears.2.2 after) (Nat.not_le.2 early)⟩
  · obtain ⟨member, before, -⟩ := Ordered.previous?_eq_some previous
    exact ⟨member, fun clears => absurd (clears.2.1 before) (Nat.not_le.2 late)⟩

end Timeline

namespace Channel

variable {channel : Channel} {instruction : Instruction} {t : Float}
  {timing : Option RampTiming} {added : Placement}

/-- The data of an instruction is valid by itself, whatever the channel holds already: the time is
on the grid, a constant comes without a duration and has a level that the channel can hold, and a
ramp comes with a duration and a rate that make a domain on the grid. -/
def Valid (channel : Channel) (instruction : Instruction) (t : Float)
    (timing : Option RampTiming) : Prop :=
  ∃ start, TimeGrid.position t channel.timeBase channel.output = .ok start ∧
    match timing with
    | none => instruction.isRamp = false ∧ channel.checkValue instruction.level t = .ok ()
    | some given => instruction.isRamp = true ∧
        ∃ span, channel.rampSpan start t given = .ok span ∧ 0 < span.period

/-- The placement that an instruction asks for: it starts at the position of the time, and a ramp
ends after the positions of its duration, which is on the grid. -/
structure Requested (channel : Channel) (instruction : Instruction) (t : Float)
    (timing : Option RampTiming) (added : Placement) : Prop where
  starts : TimeGrid.position t channel.timeBase channel.output = .ok added.start
  holds : added.instruction = instruction
  constant : timing = none → added.ramp = none
  ramp : ∀ given, timing = some given → ∃ length span,
    TimeGrid.position given.duration channel.timeBase channel.output = .ok length ∧
      added.ramp = some span ∧ span.stop = added.start + length ∧ span.stop ≤ TimeGrid.last ∧
      TimeGrid.samplePeriod given.rate channel.timeBase channel.output t = .ok span.period

/-- An instruction with valid data is placed as it asks for unless something is in the way. -/
theorem place_of_valid (valid : channel.Valid instruction t timing) :
    ∃ added, channel.Requested instruction t timing added ∧
      channel.place instruction t timing =
        match channel.timeline.overlapping? added with
        | some present => .error (.timeline channel.output t (.overlap added present))
        | none => .ok added := by
  obtain ⟨start, starts, data⟩ := valid
  cases timing with
  | none =>
      obtain ⟨noRamp, checked⟩ := data
      refine ⟨⟨start, none, instruction, noRamp⟩,
        ⟨starts, rfl, fun _ => rfl, fun _ given => (by cases given)⟩, ?_⟩
      have formed : Placement.of start none instruction = .ok ⟨start, none, instruction, noRamp⟩ :=
        Placement.of_eq_ok.2 ⟨rfl, rfl, rfl⟩
      simp only [place, starts, noRamp, checked, formed, bind, Except.bind, pure, Except.pure]
      rfl
  | some given =>
      obtain ⟨ramps, span, spans, sampled⟩ := data
      obtain ⟨-, -, -, length, lasts, positive, stop, within, period⟩ :=
        rampSpan_eq_ok_iff.1 spans
      have nonempty : start < span.stop := by omega
      refine ⟨⟨start, some span, instruction, ramps, nonempty, sampled⟩,
        ⟨starts, rfl, fun none => (by cases none), fun _ same => ?_⟩, ?_⟩
      · cases same
        exact ⟨length, span, lasts, rfl, stop, within, period⟩
      · have formed : Placement.of start (some span) instruction =
            .ok ⟨start, some span, instruction, ramps, nonempty, sampled⟩ :=
          Placement.of_eq_ok.2 ⟨rfl, rfl, rfl⟩
        simp only [place, starts, spans, formed, bind, Except.bind, Functor.map, Except.map]
        rfl

/-- A channel takes an instruction with valid data exactly if there is room for it among all that
the timeline holds, although only the neighbours are looked at: no instruction starts at its
position, no ramp on the timeline is under way there, and none starts in the domain of a new ramp.
The placement is then the one the instruction asks for, and recording adds it and changes nothing
else.  Otherwise the fault names an instruction on the timeline that is in the way. -/
theorem place_iff_vacant (apart : channel.timeline.Apart)
    (valid : channel.Valid instruction t timing) :
    ∃ added, channel.Requested instruction t timing added ∧
      (∀ placed, channel.place instruction t timing = .ok placed ↔
        placed = added ∧ channel.timeline.Vacant added) ∧
      (∀ changed, channel.record instruction t timing = .ok changed ↔
        changed = channel.insert added ∧ channel.timeline.Vacant added) ∧
      ∀ fault, channel.place instruction t timing = .error fault →
        ∃ present ∈ channel.timeline.items, ¬ present.Clears added ∧
          fault = .timeline channel.output t (.overlap added present) := by
  obtain ⟨added, requested, placing⟩ := place_of_valid valid
  have vacant : channel.timeline.overlapping? added = none ↔ channel.timeline.Vacant added :=
    Timeline.overlapping?_eq_none_iff_vacant apart
  refine ⟨added, requested, ?_⟩
  rw [← vacant]
  simp only [record_eq_ok, placing]
  cases found : channel.timeline.overlapping? added with
  | none => simp [eq_comm]
  | some present =>
      obtain ⟨member, inTheWay⟩ := Timeline.overlapping?_mem found
      refine ⟨by simp, by simp, fun fault failed => ⟨present, member, inTheWay, ?_⟩⟩
      exact (Except.error.inj failed).symm

/-- A channel with a ramp from position 10 to position 20 and a constant at position 30. -/
def gapped : Channel :=
  ⟨"ao0", "volts", .analog, 0, 1e9, .ofList
    [⟨10, some ⟨20, 5⟩, .linear 0 1, rfl, by decide, by decide⟩, ⟨30, none, .constant 3, rfl⟩]⟩

/-- There is room for a ramp between the two that touches both. -/
theorem gapped_filled : ∃ added, gapped.place (.linear 1 2) 2e-8 (some ⟨1e-8, 2e8⟩) = .ok added ∧
    added.start = 20 ∧ added.ramp = some ⟨30, 5⟩ := by
  have starts : TimeGrid.position 2e-8 1e9 "volts/ao0" = .ok 20 :=
    Checks.toOption_eq_some_iff.1 (by decide +kernel)
  have spans : gapped.rampSpan 20 2e-8 ⟨1e-8, 2e8⟩ = .ok ⟨30, 5⟩ :=
    Checks.toOption_eq_some_iff.1 (by decide +kernel)
  have apart : gapped.timeline.Apart := by
    unfold Timeline.Apart
    decide +kernel
  have valid : gapped.Valid (.linear 1 2) 2e-8 (some ⟨1e-8, 2e8⟩) :=
    ⟨20, starts, rfl, ⟨30, 5⟩, spans, by decide⟩
  obtain ⟨added, requested, taken, -⟩ := place_iff_vacant apart valid
  have start : added.start = 20 := Except.ok.inj (requested.starts.symm.trans starts)
  have ramp : added.ramp = some ⟨30, 5⟩ := by
    obtain ⟨-, -, -, _, lasts, -, stop, -, period⟩ := rampSpan_eq_ok_iff.1 spans
    obtain ⟨length, span, sameLength, ramp, ends, -, samePeriod⟩ := requested.ramp _ rfl
    have sameStop : span.stop = 30 := by
      rw [ends, start, Except.ok.inj (sameLength.symm.trans lasts), ← stop]
    have every : span.period = 5 := Except.ok.inj (samePeriod.symm.trans period)
    rw [ramp, ← sameStop, ← every]
  refine ⟨added, (taken added).2 ⟨rfl, fun present member => ?_⟩, start, ramp⟩
  have onTimeline : present.start = 10 ∧ present.ramp = some ⟨20, 5⟩ ∨
      present.start = 30 ∧ present.ramp = none := by
    rcases List.mem_cons.1 member with rfl | later
    · exact Or.inl ⟨rfl, rfl⟩
    · rw [List.mem_singleton.1 later]
      exact Or.inr ⟨rfl, rfl⟩
  rcases onTimeline with ⟨presentStart, presentRamp⟩ | ⟨presentStart, presentRamp⟩ <;>
    simp [Placement.Covers, presentStart, presentRamp, start, ramp]

end Channel

end Metronome
