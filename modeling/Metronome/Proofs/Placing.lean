/-
Module: Metronome.Proofs.Placing
Purpose: When a channel admits an instruction at a time, and where the instruction then stands.
Trusted boundary: none
Main exports:
  Timeline.Apart, Placement.Clears, Timeline.overlapping?_eq_none_iff, Timeline.insert_apart,
  Placement.of_eq_ok, Channel.Admits, Channel.place_eq_ok
-/
import Metronome.Channel
import Metronome.Proofs.Checks
import Metronome.Proofs.Chronology

/-!
The search for a collision looks at the placement with the same start, at the next one and at the
previous one.  A placement further on starts after the next one, and one further back has ended when
the previous one starts, so no other placement can be in the way.
-/

namespace Metronome

/-! ### Neighbours -/

namespace Ordered

variable {α : Type} {position : α → Nat} {ordered : Ordered position} {point : Nat} {item : α}

/-- An insertion at a position that is not taken adds the item to the others. -/
theorem mem_insert_iff {other : α} (free : ∀ present ∈ ordered.items,
    position present ≠ position item) :
    other ∈ (ordered.insert item).items ↔ other = item ∨ other ∈ ordered.items := by
  refine ⟨mem_insert, fun member => member.elim (fun same => ?_) mem_insert_of_mem⟩
  have taken : ∃ present ∈ (ordered.insert item).items, position present = position item :=
    position_mem_insert.2 (Or.inl rfl)
  obtain ⟨present, held, equal⟩ := taken
  rcases mem_insert held with itself | old
  · rw [itself] at held
    exact same ▸ held
  · exact absurd equal (free present old)

theorem find?_eq_none_iff : ordered.find? point = none ↔ ∀ item ∈ ordered.items,
    position item ≠ point := by
  simp [find?]

theorem next?_eq_none_iff : ordered.next? point = none ↔ ∀ item ∈ ordered.items,
    position item ≤ point := by
  simp [next?]

/-- The next item is the one with the smallest position after the point. -/
theorem next?_eq_some (found : ordered.next? point = some item) :
    item ∈ ordered.items ∧ point < position item ∧
      ∀ other ∈ ordered.items, point < position other → position item ≤ position other := by
  obtain ⟨later, before, rest, split, early⟩ := List.find?_eq_some_iff_append.1 found
  have increasing := ordered.increasing
  rw [split] at increasing ⊢
  refine ⟨by simp, by simpa using later, fun other member after => ?_⟩
  rcases List.mem_append.1 member with inBefore | inRest
  · exact absurd after (by simpa using early other inBefore)
  · rcases List.mem_cons.1 inRest with rfl | behind
    · exact Nat.le_refl _
    · exact Nat.le_of_lt
        ((List.pairwise_cons.1 (List.pairwise_append.1 increasing).2.1).1 other behind)

/-- The previous item is the latest one that is not after the position below the point. -/
theorem previous?_succ : ordered.previous? (point + 1) =
    Chronology.latest position ordered.items point := by
  have closed : ordered.items.Pairwise fun first second =>
      decide (position second < point + 1) = true → decide (position first < point + 1) = true :=
    ordered.increasing.imp fun less within => by
      rw [decide_eq_true_iff] at within ⊢
      omega
  rw [previous?, Chronology.takeWhile_eq_filter closed, Chronology.latest]
  simp only [Nat.lt_succ_iff]

theorem previous?_eq_none (none : ordered.previous? point = none) :
    ∀ item ∈ ordered.items, point ≤ position item := by
  cases point with
  | zero => exact fun _ _ => Nat.zero_le _
  | succ point => exact Chronology.latest_eq_none_iff.1 (previous?_succ ▸ none)

/-- The previous item is the one with the greatest position before the point. -/
theorem previous?_eq_some (found : ordered.previous? point = some item) :
    item ∈ ordered.items ∧ position item < point ∧
      ∀ other ∈ ordered.items, position other < point → position other ≤ position item := by
  cases point with
  | zero =>
      obtain ⟨items, increasing⟩ := ordered
      cases items <;> simp [previous?] at found
  | succ point =>
      obtain ⟨member, before, greatest⟩ :=
        (Chronology.latest_eq_some_iff ordered.increasing).1 (previous?_succ ▸ found)
      exact ⟨member, Nat.lt_succ_of_le before,
        fun other present less => greatest other present (Nat.le_of_lt_succ less)⟩

end Ordered

/-! ### Collisions -/

/-- Two placements keep apart: they start at different positions, and the one that starts first ends
before the other starts or just there. -/
def Placement.Clears (first second : Placement) : Prop :=
  first.start ≠ second.start ∧ (first.start < second.start → first.stop ≤ second.start) ∧
    (second.start < first.start → second.stop ≤ first.start)

/-- The placements of a timeline keep apart from each other, in the order of their starts. -/
def Timeline.Apart (timeline : Timeline) : Prop :=
  timeline.items.Pairwise fun first second =>
    first.start < second.start ∧ first.stop ≤ second.start

namespace Timeline

variable {timeline : Timeline} {added : Placement}

/-- Since starts increase, it is enough that of any two placements the earlier one ends in time. -/
theorem apart_iff : timeline.Apart ↔ ∀ first ∈ timeline.items, ∀ second ∈ timeline.items,
    first.start < second.start → first.stop ≤ second.start := by
  constructor
  · intro apart first firstIn second secondIn less
    obtain ⟨before, behind, split⟩ := List.append_of_mem secondIn
    rw [Apart, split, List.pairwise_append, List.pairwise_cons] at apart
    obtain ⟨-, ⟨later, -⟩, earlier⟩ := apart
    rw [split] at firstIn
    rcases List.mem_append.1 firstIn with inBefore | inRest
    · exact (earlier first inBefore second List.mem_cons_self).2
    · rcases List.mem_cons.1 inRest with rfl | inBehind
      · exact absurd less (Nat.lt_irrefl _)
      · exact absurd less (Nat.lt_asymm (later first inBehind).1)
  · intro all
    exact timeline.increasing.imp_of_mem fun firstIn secondIn less =>
      ⟨less, all _ firstIn _ secondIn less⟩

/-- A placement that collides with nothing starts where no other does. -/
theorem starts_ne (free : timeline.overlapping? added = none) :
    ∀ present ∈ timeline.items, present.start ≠ added.start := by
  simp only [overlapping?, Option.or_eq_none_iff] at free
  exact Ordered.find?_eq_none_iff.1 free.1.1

/-- A placement collides with nothing exactly if it keeps apart from every placement, although only
its neighbours are looked at. -/
theorem overlapping?_eq_none_iff (apart : timeline.Apart) :
    timeline.overlapping? added = none ↔ ∀ present ∈ timeline.items, present.Clears added := by
  have order := apart_iff.1 apart
  simp only [overlapping?, Option.or_eq_none_iff, Option.filter_eq_none_iff,
    Ordered.find?_eq_none_iff]
  constructor
  · rintro ⟨⟨distinct, next⟩, previous⟩ present member
    refine ⟨distinct present member, fun before => ?_, fun after => ?_⟩
    · cases found : timeline.previous? added.start with
      | none =>
          have late := Ordered.previous?_eq_none found present member
          omega
      | some neighbour =>
          obtain ⟨neighbourIn, neighbourBefore, greatest⟩ := Ordered.previous?_eq_some found
          have inside := previous neighbour found
          rcases Nat.lt_or_eq_of_le (greatest present member before) with less | equal
          · have ended := order present member neighbour neighbourIn less
            omega
          · rw [Ordered.eq_of_position_eq member neighbourIn equal]
            -- A constant ends where it starts, so only a ramp can reach past the new start.
            cases ramp : neighbour.ramp with
            | none =>
                have stop : neighbour.stop = neighbour.start := by rw [Placement.stop, ramp]
                omega
            | some span => simpa [ramp] using inside
    · cases found : timeline.next? added.start with
      | none =>
          have early := Ordered.next?_eq_none_iff.1 found present member
          omega
      | some neighbour =>
          obtain ⟨-, -, smallest⟩ := Ordered.next?_eq_some found
          have free := next neighbour found
          have reached := smallest present member after
          rw [decide_eq_true_eq] at free
          omega
  · intro clears
    refine ⟨⟨fun present member => (clears present member).1, fun neighbour found => ?_⟩,
      fun neighbour found => ?_⟩
    · obtain ⟨member, after, -⟩ := Ordered.next?_eq_some found
      have ended := (clears neighbour member).2.2 after
      simpa using ended
    · obtain ⟨member, before, -⟩ := Ordered.previous?_eq_some found
      have ended := (clears neighbour member).2.1 before
      simp only [Bool.and_eq_true, decide_eq_true_eq, not_and, Nat.not_lt]
      exact fun _ => ended

/-- A timeline keeps apart with a placement that collides with nothing. -/
theorem insert_apart (apart : timeline.Apart) (free : timeline.overlapping? added = none) :
    Apart (timeline.insert added) := by
  have clears := (overlapping?_eq_none_iff apart).1 free
  have order := apart_iff.1 apart
  refine apart_iff.2 fun first firstIn second secondIn less => ?_
  rcases Ordered.mem_insert firstIn with rfl | firstOld <;>
    rcases Ordered.mem_insert secondIn with rfl | secondOld
  · omega
  · exact (clears second secondOld).2.2 less
  · exact (clears first firstOld).2.1 less
  · exact order first firstOld second secondOld less

end Timeline

/-! ### Admission -/

/-- A placement is made exactly if its domain fits its instruction. -/
theorem Placement.of_eq_ok {start : Nat} {ramp : Option RampSpan} {instruction : Instruction}
    {added : Placement} :
    Placement.of start ramp instruction = .ok added ↔
      added.start = start ∧ added.ramp = ramp ∧ added.instruction = instruction := by
  constructor
  · intro made
    unfold Placement.of at made
    cases ramp with
    | none =>
        dsimp only at made
        split at made <;> cases made
        exact ⟨rfl, rfl, rfl⟩
    | some span =>
        dsimp only at made
        repeat' split at made
        all_goals cases made
        exact ⟨rfl, rfl, rfl⟩
  · rintro ⟨rfl, rfl, rfl⟩
    obtain ⟨start, ramp, instruction, fits⟩ := added
    unfold Placement.of
    cases ramp with
    | none => exact dif_pos fits
    | some span =>
        obtain ⟨ramps, nonempty, sampled⟩ := fits
        simp only [ramps, nonempty, sampled, dif_pos]

namespace Channel

variable {channel : Channel} {instruction : Instruction} {t : Float}
  {timing : Option RampTiming} {added : Placement}

/-- The values a channel holds are finite, and on a digital channel they are levels. -/
theorem checkValue_eq_ok {value : Float} :
    channel.checkValue value t = .ok () ↔
      value.isFinite = true ∧ (channel.kind = .digital → value == 0 ∨ value == 1) := by
  unfold checkValue
  by_cases finite : value.isFinite = true
  · by_cases digital : channel.kind = .digital
    · by_cases zero : (value == 0) = true
      · simp [finite, bne, zero]
      · by_cases one : (value == 1) = true
        · simp [finite, bne, one]
        · simp [finite, digital, bne, zero, one]
    · simp [finite, digital]
  · simp [finite]

/-- A ramp has a domain exactly on an analog channel, with a duration of some positions that ends on
the grid and a sample rate on the grid. -/
theorem rampSpan_eq_ok_iff {start : Nat} {given : RampTiming} {span : RampSpan} :
    channel.rampSpan start t given = .ok span ↔
      channel.kind ≠ .digital ∧ given.duration.isFinite = true ∧ ¬ given.duration ≤ 0 ∧
        ∃ length, TimeGrid.position given.duration channel.timeBase channel.output = .ok length ∧
          1 ≤ length ∧ span.stop = start + length ∧ span.stop ≤ TimeGrid.last ∧
          TimeGrid.samplePeriod given.rate channel.timeBase channel.output t =
            .ok span.period := by
  unfold rampSpan
  by_cases digital : channel.kind = .digital
  · simp [digital]
  · by_cases finite : given.duration.isFinite = true
    · by_cases nonpos : given.duration ≤ 0
      · simp [digital, nonpos]
      · simp only [digital, finite, nonpos, Bool.not_true, decide_false, Bool.or_self,
          Bool.false_eq_true, if_false, Checks.bind_eq_ok, ne_eq, not_false_iff, true_and]
        refine exists_congr fun length => and_congr_right fun _ => ?_
        obtain ⟨stop, period⟩ := span
        by_cases none : length = 0
        · simp [none]
        · by_cases beyond : TimeGrid.last < start + length
          · simp only [none, beyond, if_true, if_false]
            refine iff_of_false nofun fun ⟨_, same, within, _⟩ => ?_
            omega
          · simp only [none, beyond, if_false, Checks.bind_eq_ok]
            constructor
            · rintro ⟨_, sampled, made⟩
              cases made
              exact ⟨by omega, rfl, Nat.le_of_not_lt beyond, sampled⟩
            · rintro ⟨-, rfl, -, sampled⟩
              exact ⟨period, sampled, rfl⟩
    · simp [digital, finite]

/-- The domain of a ramp ends on the grid, and a digital channel has none. -/
theorem rampSpan_eq_ok {start : Nat} {timing : RampTiming} {span : RampSpan}
    (made : channel.rampSpan start t timing = .ok span) :
    channel.kind ≠ .digital ∧ span.stop ≤ TimeGrid.last := by
  obtain ⟨analog, -, -, length, -, -, -, within, -⟩ := rampSpan_eq_ok_iff.1 made
  exact ⟨analog, within⟩

/-- What a channel asks of a placement for an instruction at a time. -/
structure Admits (channel : Channel) (instruction : Instruction) (t : Float)
    (timing : Option RampTiming) (added : Placement) : Prop where
  starts : TimeGrid.position t channel.timeBase channel.output = .ok added.start
  holds : added.instruction = instruction
  constant : timing = none → added.ramp = none ∧ channel.checkValue instruction.level t = .ok ()
  ramp : ∀ {given}, timing = some given →
    ∃ span, added.ramp = some span ∧ channel.rampSpan added.start t given = .ok span
  free : channel.timeline.overlapping? added = none

/-- An instruction is placed exactly where the channel admits the placement. -/
theorem place_eq_ok :
    channel.place instruction t timing = .ok added ↔
      channel.Admits instruction t timing added := by
  rw [place, Checks.bind_eq_ok]
  cases timing with
  | none =>
      constructor
      · rintro ⟨start, starts, made⟩
        dsimp only at made
        split at made
        · cases made
        · obtain ⟨_, checked, unramped⟩ := Checks.bind_eq_ok.1 made
          obtain ⟨_, ⟨⟩, rest⟩ := Checks.bind_eq_ok.1 unramped
          obtain ⟨placement, placed, decided⟩ := Checks.bind_eq_ok.1 rest
          obtain ⟨rfl, ramp, holds⟩ := Placement.of_eq_ok.1 placed
          split at decided
          · cases decided
          · cases decided
            exact ⟨starts, holds, fun _ => ⟨ramp, checked⟩, fun given => (by cases given), ‹_›⟩
      · rintro ⟨starts, holds, constant, -, free⟩
        obtain ⟨ramp, checked⟩ := constant rfl
        have noRamp : instruction.isRamp = false := by
          have shape := added.fits
          rw [ramp, holds] at shape
          exact shape
        refine ⟨added.start, starts, ?_⟩
        simp only [noRamp, checked]
        refine Checks.bind_eq_ok.2 ⟨(), rfl, Checks.bind_eq_ok.2 ⟨none, rfl, ?_⟩⟩
        exact Checks.bind_eq_ok.2
          ⟨added, Placement.of_eq_ok.2 ⟨rfl, ramp, holds⟩, by rw [free]; rfl⟩
  | some given =>
      constructor
      · rintro ⟨start, starts, made⟩
        obtain ⟨span, spans, rest⟩ := Checks.bind_eq_ok.1 made
        obtain ⟨length, made, rfl⟩ := Checks.map_eq_ok.1 spans
        obtain ⟨placement, placed, decided⟩ := Checks.bind_eq_ok.1 rest
        obtain ⟨rfl, ramp, holds⟩ := Placement.of_eq_ok.1 placed
        split at decided
        · cases decided
        · cases decided
          refine ⟨starts, holds, fun none => (by cases none), fun same => ?_, ‹_›⟩
          cases same
          exact ⟨length, ramp, made⟩
      · rintro ⟨starts, holds, -, ramp, free⟩
        obtain ⟨length, spans, made⟩ := ramp rfl
        refine ⟨added.start, starts, ?_⟩
        dsimp only
        rw [made]
        refine Checks.bind_eq_ok.2 ⟨some length, rfl, ?_⟩
        exact Checks.bind_eq_ok.2
          ⟨added, Placement.of_eq_ok.2 ⟨rfl, spans, holds⟩, by rw [free]; rfl⟩

end Channel
end Metronome
