/-
Module: Metronome.Proofs.Emission
Purpose: A walk that emits whole blocks makes the program that its single events are compressed to,
  so that run-length coding loses nothing and leaves nothing to merge.
Trusted boundary: none
Main exports:
  Block.events, Wait.event, Schedule.eventsOf, ProgramDraft.extend_unstamped,
  Schedule.Serves.assembled_unstamped, Schedule.Serves.assembled_canonical,
  Schedule.Serves.assembled_numeric, Program.run_length_coding
-/
import Metronome.Proofs.RunLength
import Metronome.Proofs.Seconds
import Metronome.Proofs.Soundness
import Metronome.Proofs.Ticks

/-!
Runs are pushed by two producers: `compress` pushes one event at a time, the walk over a schedule
one block at a time.  `Entry.foldl_pushEvent_replicate` makes a block the same as its events, as
long as its seconds are a number; a wait is the same in both.  So a schedule has the program that
its events are compressed to, but for the origin times, and what holds of every compressed stream
holds of it.
-/

namespace Metronome

/-- The single events of a block. -/
def Block.events (timeBase : Float) (block : Block) : List Event :=
  List.replicate block.repetitions
    (.tick (TimeGrid.seconds block.period timeBase) block.dualRate)

/-- A wait as an event. -/
def Wait.event (wait : Wait) : Event :=
  .wait ⟨wait.label, wait.timeout, none⟩

/-- The events of a segment: the wait at its start, if there is one, and the ticks of its blocks. -/
def Schedule.eventsOf (schedule : Schedule) (timeBase : Float) (segment : Segment) : List Event :=
  (schedule.waits.find? segment.start).toList.map Wait.event ++
    (schedule.blocksOf segment).flatMap (Block.events timeBase)

/-- The periods of blocks that leave no gap are numbers in seconds. -/
theorem Block.Tile.isNaN_seconds {start stop : Nat} {blocks : List Block}
    (tile : Tile start blocks stop) (word : stop < 2 ^ 64) {timeBase : Float}
    (number : timeBase.isNaN = false) {block : Block} (member : block ∈ blocks) :
    (TimeGrid.seconds block.period timeBase).isNaN = false := by
  have reach := tile.period_le member
  exact TimeGrid.isNaN_seconds number (tile.pos member).1 (by omega)

/-- An undefined time base has no exact seconds. -/
theorem TimeGrid.ExactUpTo.isNaN {timeBase : Float} {stop : Nat}
    (faithful : ExactUpTo timeBase stop) (positive : 0 < stop) : timeBase.isNaN = false := by
  rw [Float.isNaN_eq_decide_eq_nan, decide_eq_false_iff_not]
  rintro rfl
  exact absurd (faithful 1 (Nat.le_refl 1) positive) (by decide)

/-- Positions with exact seconds are words. -/
theorem TimeGrid.ExactUpTo.lt_word {timeBase : Float} {stop : Nat}
    (faithful : ExactUpTo timeBase stop) : stop < 2 ^ 64 :=
  Nat.lt_of_le_of_lt faithful.le_last (by decide)

/-! ### The walk -/

namespace ProgramDraft

variable {settings : Settings} {schedule : Schedule}

/-- Blocks have the effect of their single events. -/
theorem foldl_pushBlock_unstamped {blocks : List Block} {start stop : Nat}
    (tile : Block.Tile start blocks stop) (word : stop < 2 ^ 64)
    (number : settings.timeBase.isNaN = false) (draft : ProgramDraft) :
    (blocks.foldl (pushBlock settings) draft).entries.map Entry.unstamped =
      (blocks.flatMap (Block.events settings.timeBase)).foldl Entry.pushEvent
        (draft.entries.map Entry.unstamped) := by
  induction blocks generalizing draft start with
  | nil => rfl
  | cons block rest ih =>
      have counted := (tile.pos (List.mem_cons_self ..)).2
      have period := tile.isNaN_seconds word number (List.mem_cons_self ..)
      rw [List.foldl_cons, ih tile.2.2.2, List.flatMap_cons, List.foldl_append, Block.events,
        Entry.foldl_pushEvent_replicate period block.dualRate counted, pushBlock,
        Entry.map_unstamped_pushRun]
      rfl

/-- A segment has the effect of its single events. -/
theorem extend_unstamped {segment : Segment}
    (tile : Block.Tile segment.start (schedule.blocksOf segment) segment.next)
    (word : segment.next < 2 ^ 64) (number : settings.timeBase.isNaN = false)
    (draft : ProgramDraft) :
    (draft.extend settings schedule segment).entries.map Entry.unstamped =
      (schedule.eventsOf settings.timeBase segment).foldl Entry.pushEvent
        (draft.entries.map Entry.unstamped) := by
  have entered : (draft.enter settings schedule segment).entries.map Entry.unstamped =
      ((schedule.waits.find? segment.start).toList.map Wait.event).foldl Entry.pushEvent
        (draft.entries.map Entry.unstamped) := by
    unfold enter
    cases schedule.waits.find? segment.start <;> rfl
  rw [extend, foldl_pushBlock_unstamped tile word number, Schedule.eventsOf, List.foldl_append,
    ← entered]

theorem foldl_extend_unstamped {segments : List Segment} {stop : Nat} (word : stop < 2 ^ 64)
    (inside : ∀ segment ∈ segments, segment.next ≤ stop)
    (tiles : ∀ segment ∈ segments,
      Block.Tile segment.start (schedule.blocksOf segment) segment.next)
    (number : settings.timeBase.isNaN = false) (draft : ProgramDraft) :
    (segments.foldl (extend settings schedule) draft).entries.map Entry.unstamped =
      (segments.flatMap (schedule.eventsOf settings.timeBase)).foldl Entry.pushEvent
        (draft.entries.map Entry.unstamped) := by
  induction segments generalizing draft with
  | nil => rfl
  | cons segment rest ih =>
      obtain ⟨first, others⟩ := List.forall_mem_cons.1 inside
      obtain ⟨firstTile, otherTiles⟩ := List.forall_mem_cons.1 tiles
      rw [List.foldl_cons, ih others otherTiles,
        extend_unstamped firstTile (Nat.lt_of_le_of_lt first word) number, List.flatMap_cons,
        List.foldl_append]

/-- A segment leaves nothing to merge, whatever becomes of the periods. -/
theorem extend_canonical {draft : ProgramDraft} (canonical : Entry.Canonical draft.entries.reverse)
    {segment : Segment}
    (tile : Block.Tile segment.start (schedule.blocksOf segment) segment.next) :
    Entry.Canonical (draft.extend settings schedule segment).entries.reverse := by
  have entered : Entry.Canonical (draft.enter settings schedule segment).entries.reverse := by
    unfold enter
    split
    · exact canonical.pushWait _
    · exact canonical
  refine List.foldlRecOn
    (motive := fun draft : ProgramDraft => Entry.Canonical draft.entries.reverse) _ _ entered ?_
  intro draft canonical block member
  exact canonical.pushRun (tile.pos member).2

end ProgramDraft

namespace Schedule.Serves

variable {schedule : Schedule} {demand : Demand} {settings : Settings}

/-- A program has nothing left to merge. -/
theorem assembled_canonical (serves : schedule.Serves demand)
    (bounded : demand.Bounded schedule.stop) (settings : Settings) :
    Entry.Canonical (schedule.assembled settings).entries := by
  refine List.foldlRecOn
    (motive := fun draft : ProgramDraft => Entry.Canonical draft.entries.reverse) _ _
    Entry.canonical_nil ?_
  intro draft canonical segment member
  exact ProgramDraft.extend_canonical canonical (serves.blocks_tile bounded member)

/-- A program is what the events of its segments are compressed to, but for the origin times. -/
theorem assembled_unstamped (serves : schedule.Serves demand)
    (bounded : demand.Bounded schedule.stop) (word : schedule.stop < 2 ^ 64)
    (number : settings.timeBase.isNaN = false) :
    (schedule.assembled settings).unstamped =
      Program.compress settings.timeBase (TimeGrid.seconds schedule.stop settings.timeBase)
        (schedule.segments.flatMap (schedule.eventsOf settings.timeBase)) := by
  have walked := ProgramDraft.foldl_extend_unstamped word
    (fun _ member => ((serves.follow bounded).bounds member).2.2)
    (fun _ => serves.blocks_tile bounded) number { sweep := { pending := schedule.windows } }
  rw [assembled, Program.unstamped, List.map_reverse, draft, walked]
  rfl

/-- Of the settings only the time base matters to a program, but for the origin times. -/
theorem unstamped_eq_of_timeBase (serves : schedule.Serves demand)
    (bounded : demand.Bounded schedule.stop) (word : schedule.stop < 2 ^ 64)
    (number : settings.timeBase.isNaN = false) {other : Settings}
    (same : other.timeBase = settings.timeBase) :
    (schedule.assembled other).unstamped = (schedule.assembled settings).unstamped := by
  have otherNumber : other.timeBase.isNaN = false := by rw [same, number]
  rw [serves.assembled_unstamped bounded word otherNumber,
    serves.assembled_unstamped bounded word number, same]

/-- The periods of a program are numbers, and so are its timeouts if those of the waits are. -/
theorem assembled_numeric (serves : schedule.Serves demand)
    (bounded : demand.Bounded schedule.stop) (word : schedule.stop < 2 ^ 64)
    (number : settings.timeBase.isNaN = false)
    (timeouts : ∀ wait ∈ schedule.waits.items, ∀ timeout, wait.timeout = some timeout →
      timeout.isNaN = false) : (schedule.assembled settings).Numeric := by
  have isWait : ∀ segment : Segment, ∀ event ∈
      (schedule.waits.find? segment.start).toList.map Wait.event,
        ∃ wait ∈ schedule.waits.items, wait.event = event := by
    intro segment event member
    obtain ⟨wait, found, rfl⟩ := List.mem_map.1 member
    exact ⟨wait, (Ordered.find?_eq_some_iff.1 (Option.mem_toList.1 found)).1, rfl⟩
  apply Program.Numeric.of_unstamped
  rw [serves.assembled_unstamped bounded word number]
  refine Program.compress_numeric number ?_ ?_ ?_
  · have positive := Nat.zero_lt_of_lt (bounded.before 0 bounded.zero)
    exact TimeGrid.isNaN_seconds number positive word
  · intro event member
    obtain ⟨segment, inSegments, inEvents⟩ := List.mem_flatMap.1 member
    rcases List.mem_append.1 inEvents with waits | ticks
    · obtain ⟨wait, -, rfl⟩ := isWait segment event waits
      trivial
    · obtain ⟨block, inBlocks, isEvent⟩ := List.mem_flatMap.1 ticks
      obtain ⟨-, rfl⟩ := List.mem_replicate.1 isEvent
      have inside := ((serves.follow bounded).bounds inSegments).2.2
      exact (serves.blocks_tile bounded inSegments).isNaN_seconds
        (Nat.lt_of_le_of_lt inside word) number inBlocks
  · intro marker member
    obtain ⟨segment, -, inEvents⟩ := List.mem_flatMap.1 member
    rcases List.mem_append.1 inEvents with waits | ticks
    · obtain ⟨wait, inWaits, same⟩ := isWait segment _ waits
      cases same
      exact timeouts wait inWaits
    · obtain ⟨block, -, isEvent⟩ := List.mem_flatMap.1 ticks
      obtain ⟨-, same⟩ := List.mem_replicate.1 isEvent
      cases same

end Schedule.Serves

/-! ### Programs of a clock -/

namespace Pseudoclock

variable {clock : Pseudoclock} {outputs : List Output} {stop : Nat} {settings : Settings}
  {program : Program}

theorem program_canonical (made : clock.program outputs stop settings = .ok program) :
    Entry.Canonical program.entries := by
  obtain ⟨timely, -, -, rfl⟩ := program_eq_ok.1 made
  exact (Schedule.gather_serves clock outputs stop).assembled_canonical timely.bounded settings

/-- On a time base that is a number a program consists of numbers. -/
theorem program_numeric (sound : clock.Sound) (word : stop < 2 ^ 64)
    (number : settings.timeBase.isNaN = false)
    (made : clock.program outputs stop settings = .ok program) : program.Numeric := by
  obtain ⟨timely, -, -, rfl⟩ := program_eq_ok.1 made
  apply (Schedule.gather_serves clock outputs stop).assembled_numeric timely.bounded word number
  intro wait member timeout given
  exact Number.isNaN_of_isFinite ((sound wait member).2.2 timeout given).1

/-- A program is what its events are compressed to exactly if its time base is a number: an
undefined one is not even equal to itself. -/
theorem compress_program_iff (sound : clock.Sound) (word : stop < 2 ^ 64)
    (made : clock.program outputs stop settings = .ok program) :
    (Program.compress program.timeBase program.stopTime program.events == program) = true ↔
      settings.timeBase.isNaN = false := by
  constructor
  · intro same
    change (program.timeBase == program.timeBase && _ && _) = true at same
    rw [Bool.and_eq_true, Bool.and_eq_true, timeBase_program made] at same
    exact Number.isNaN_of_beq same.1.1
  · intro number
    have numeric := program_numeric sound word number made
    rw [← Program.beq_unstamped,
      Program.compress_of_canonical (program_canonical made) numeric.periods,
      Program.beq_unstamped]
    exact numeric.beq_self

/-- The waits of the gated clock keep the rules. -/
theorem gated_sound : gated.Sound := by
  intro wait member
  have listed : gated.waits.items =
      [⟨25, "gate", 2.5e-8, none⟩, ⟨30, "resume", 3e-8, some 1⟩] := rfl
  rw [listed, List.mem_cons, List.mem_singleton] at member
  rcases member with rfl | rfl
  · exact ⟨by decide, by decide, fun _ given => nomatch given⟩
  · refine ⟨by decide, by decide, fun timeout given => ?_⟩
    cases given
    exact ⟨by decide, by decide⟩

end Pseudoclock

/-- Run-length coding loses nothing and leaves nothing to merge.  A stream of events is compressed
to a program with the same events, where periods are compared as doubles, and without neighbouring
runs of the same period and rate.  The program of a clock has no empty run and no such neighbours either,
and it is equal to what its events are compressed to exactly if the time base is a number, since an
undefined time base is not even equal to itself. -/
theorem Program.run_length_coding :
    (∀ (timeBase stopTime : Float) (events : List Event),
      (∀ event ∈ events, event.Numeric) →
        List.Forall₂ Event.Same (compress timeBase stopTime events).events events ∧
        (compress timeBase stopTime events).entries.IsChain fun first second =>
          first.merges second = false) ∧
    ∀ (clock : Pseudoclock) (outputs : List Output) (stop : Nat) (settings : Settings)
      (program : Program), clock.program outputs stop settings = .ok program →
        (∀ run ∈ program.runs, 1 ≤ run.repetitions) ∧
        (program.entries.IsChain fun first second => first.merges second = false) ∧
        (clock.Sound → stop < 2 ^ 64 →
          ((compress program.timeBase program.stopTime program.events == program) = true ↔
            settings.timeBase.isNaN = false)) := by
  constructor
  · intro timeBase stopTime events numeric
    exact ⟨compress_events numeric timeBase stopTime,
      (compress_canonical timeBase stopTime events).apart⟩
  · intro clock outputs stop settings program made
    obtain ⟨counted, apart⟩ := Pseudoclock.program_canonical made
    refine ⟨fun run member => ?_, apart, fun sound word =>
      Pseudoclock.compress_program_iff sound word made⟩
    obtain ⟨entry, inEntries, isRun⟩ := List.mem_filterMap.1 member
    cases entry with
    | wait marker => cases isRun
    | tick other =>
        cases isRun
        exact counted run inEntries

/-- Equal ticks on both sides of a wait are not merged, and the program of the gated clock is what
its events are compressed to. -/
theorem Program.run_length_coding_gated :
    List.Forall₂ Event.Same
      (compress 1e9 1 [.tick 1 true, .wait ⟨"gate", none, none⟩, .tick 1 true]).events
      [.tick 1 true, .wait ⟨"gate", none, none⟩, .tick 1 true] ∧
    ∃ program, Pseudoclock.gated.program Output.staggered 40 {} = .ok program ∧
      (compress program.timeBase program.stopTime program.events == program) = true := by
  obtain ⟨streams, programs⟩ := run_length_coding
  have tick : (Event.tick 1 true).Numeric := by
    rw [Event.Numeric]
    decide
  have wait : (Event.wait ⟨"gate", none, none⟩).Numeric := trivial
  have numeric := List.forall_mem_cons.2
    ⟨tick, List.forall_mem_cons.2 ⟨wait, List.forall_mem_singleton.2 tick⟩⟩
  have succeeds : (Pseudoclock.gated.program Output.staggered 40 {}).isOk = true := by
    decide +kernel
  obtain ⟨program, made⟩ := Checks.isOk_iff.1 succeeds
  obtain ⟨-, -, equal⟩ := programs _ _ _ _ _ made
  exact ⟨(streams 1e9 1 _ numeric).1, program, made,
    (equal Pseudoclock.gated_sound (by decide)).2 (by decide)⟩

/-- On an undefined time base a clock has a program that is not equal to what its events are
compressed to. -/
theorem Program.undefined_not_recompressed : ∃ program,
    Pseudoclock.bare.program Output.staggered 40 { timeBase := 0 / 0 } = .ok program ∧
      (compress program.timeBase program.stopTime program.events == program) = false := by
  have run : (do
      let program ← Pseudoclock.bare.program Output.staggered 40 { timeBase := 0 / 0 }
      return compress program.timeBase program.stopTime program.events == program :
        Except Fault Bool).toOption = some false := by decide +kernel
  obtain ⟨program, made, differs⟩ := Checks.bind_eq_ok.1 (Checks.toOption_eq_some_iff.1 run)
  exact ⟨program, made, Except.ok.inj differs⟩

end Metronome
