/-
Module: Metronome.Proofs.Ticks
Purpose: The ticks of a program are those of its schedule, wherever the seconds of a distance lead
  back to the distance.
Trusted boundary: none
Main exports:
  TimeGrid.ExactUpTo, Entry.Continues, ProgramDraft.foldl_extend_continues, Program.tickPeriods,
  Schedule.Serves.assembled_ticks, Schedule.Serves.assembled_periods, Schedule.assembled_rates,
  Schedule.assembled_tickCount, Pseudoclock.program_fits, Pseudoclock.ticks_positions,
  Pseudoclock.dualTicks_eq
-/
import Metronome.Proofs.Draft
import Metronome.Proofs.Pointwise
import Metronome.Proofs.Unrolling

/-!
A program keeps the period of a run in seconds and its ticks are computed back from that, so the
positions rely on `TimeGrid.ExactUpTo`.  The number of ticks and their rates do not.
-/

namespace Metronome

/-- The seconds of every distance up to a stop lead back to that distance. -/
def TimeGrid.ExactUpTo (timeBase : Float) (stop : Nat) : Prop :=
  ∀ distance, 1 ≤ distance → distance ≤ stop →
    Number.toWord (Number.nearest (seconds distance timeBase * timeBase)) = distance

/-- Past `2 ^ 53` distances are no longer told apart, so a stop with exact seconds is not later. -/
theorem TimeGrid.ExactUpTo.le_last {timeBase : Float} {stop : Nat}
    (faithful : ExactUpTo timeBase stop) : stop ≤ last := by
  apply Nat.le_of_not_lt
  intro later
  have merged : Number.ofWord (last + 1) = Number.ofWord last :=
    congrArg Float.ofModel (by decide +kernel)
  have before := faithful last (by decide) (Nat.le_of_lt later)
  have after := faithful (last + 1) (Nat.succ_pos last) later
  rw [seconds, merged, ← seconds, before] at after
  exact absurd after (Nat.ne_of_lt (Nat.lt_succ_self last))

instance (timeBase : Float) (stop : Nat) : Decidable (TimeGrid.ExactUpTo timeBase stop) :=
  decidable_of_iff (∀ before, before < stop → Number.toWord (Number.nearest
      (TimeGrid.seconds (before + 1) timeBase * timeBase)) = before + 1) <| by
    constructor
    · intro faithful distance positive inside
      obtain ⟨before, rfl⟩ := Nat.exists_eq_add_of_le' positive
      exact faithful before inside
    · intro faithful before inside
      exact faithful (before + 1) (Nat.succ_pos before) inside

namespace Entry

/-- Entries that go on from others with the single ticks of blocks, up to a position. -/
structure Continues (timeBase : Float) (before : List Entry) (blocks : List Block) (stop : Nat)
    (after : List Entry) : Prop where
  unrolled : unrolled timeBase after = unrolled timeBase before ++ blocks.flatMap Block.ticks
  periods : periods timeBase after = periods timeBase before ++
    blocks.flatMap fun block => List.replicate block.repetitions block.period
  span : span timeBase after = stop

theorem Continues.trans {timeBase : Float} {first second third : List Entry}
    {blocks more : List Block} {middle stop : Nat}
    (one : Continues timeBase first blocks middle second)
    (two : Continues timeBase second more stop third) :
    Continues timeBase first (blocks ++ more) stop third where
  unrolled := by rw [two.unrolled, one.unrolled, List.flatMap_append, List.append_assoc]
  periods := by rw [two.periods, one.periods, List.flatMap_append, List.append_assoc]
  span := two.span

end Entry

namespace ProgramDraft

variable {settings : Settings} {schedule : Schedule}

/-- A block adds the rates of its ticks, whatever becomes of its period. -/
theorem rates_foldl_pushBlock (draft : ProgramDraft) (blocks : List Block) :
    Entry.rates (blocks.foldl (pushBlock settings) draft).entries =
      Entry.rates draft.entries ++ (blocks.flatMap Block.ticks).map Tick.dualRate := by
  induction blocks generalizing draft with
  | nil => simp
  | cons block rest ih =>
      have single : block.ticks.map Tick.dualRate =
          List.replicate block.repetitions block.dualRate := by
        rw [Block.ticks, List.map_map]
        exact List.map_const'.trans (by rw [List.length_range])
      rw [List.foldl_cons, ih, pushBlock, Entry.rates_pushRun, List.flatMap_cons,
        List.map_append, single, List.append_assoc]

/-- A block that starts where a draft has got to continues it, if its period is exact. -/
theorem pushBlock_continues {draft : ProgramDraft} {block : Block}
    (begins : block.start = Entry.span settings.timeBase draft.entries)
    (faithful : Number.toWord (Number.nearest
      (TimeGrid.seconds block.period settings.timeBase * settings.timeBase)) = block.period) :
    Entry.Continues settings.timeBase draft.entries [block]
      (block.start + block.period * block.repetitions)
      (draft.pushBlock settings block).entries := by
  have positions : ∀ origin, Run.positions
      ⟨TimeGrid.seconds block.period settings.timeBase, block.repetitions, block.dualRate,
        origin⟩ settings.timeBase = block.period := fun _ => faithful
  constructor
  · rw [pushBlock, Entry.unrolled_pushRun, ← begins, List.flatMap_singleton, Run.ticks, positions,
      Block.ticks]
  · rw [pushBlock, Entry.periods_pushRun, positions, List.flatMap_singleton]
  · rw [pushBlock, Entry.span_pushRun, positions, begins]

/-- Blocks that go on where a draft has got to continue it up to their end. -/
theorem foldl_pushBlock_continues {last : Nat}
    (faithful : TimeGrid.ExactUpTo settings.timeBase last) {blocks : List Block} {stop : Nat}
    (inside : stop ≤ last) (draft : ProgramDraft)
    (tile : Block.Tile (Entry.span settings.timeBase draft.entries) blocks stop) :
    Entry.Continues settings.timeBase draft.entries blocks stop
      (blocks.foldl (pushBlock settings) draft).entries := by
  induction blocks generalizing draft with
  | nil => exact ⟨(List.append_nil _).symm, (List.append_nil _).symm, tile⟩
  | cons block rest ih =>
      have reach := tile.period_le (List.mem_cons_self ..)
      obtain ⟨begins, period, -, tail⟩ := tile
      have step := pushBlock_continues begins (faithful block.period period (by omega))
      rw [← begins, ← step.span] at tail
      exact step.trans (ih _ tail)

theorem enter_runs (settings : Settings) (schedule : Schedule) (draft : ProgramDraft)
    (segment : Segment) :
    Entry.runs (draft.enter settings schedule segment).entries = Entry.runs draft.entries := by
  unfold enter
  split
  · exact Entry.runs_wait ..
  · rfl

/-- A segment continues a draft up to its end; a wait at its start takes no time. -/
theorem extend_continues {last : Nat} (faithful : TimeGrid.ExactUpTo settings.timeBase last)
    {draft : ProgramDraft} {segment : Segment} (inside : segment.next ≤ last)
    (begins : segment.start = Entry.span settings.timeBase draft.entries)
    (tile : Block.Tile segment.start (schedule.blocksOf segment) segment.next) :
    Entry.Continues settings.timeBase draft.entries (schedule.blocksOf segment) segment.next
      (draft.extend settings schedule segment).entries := by
  have entered := enter_runs settings schedule draft segment
  have span : Entry.span settings.timeBase (draft.enter settings schedule segment).entries =
      segment.start := by rw [Entry.span, entered, begins, Entry.span]
  rw [← span] at tile
  have continued := foldl_pushBlock_continues faithful inside
    { draft.enter settings schedule segment with
      ticks := draft.ticks + ((schedule.blocksOf segment).flatMap Block.ticks).length
      sweep := draft.sweep.advance segment.start } tile
  refine ⟨continued.unrolled.trans ?_, continued.periods.trans ?_, continued.span⟩
  · simp only [Entry.unrolled, entered]
  · simp only [Entry.periods, entered]

/-- Segments that follow each other from where a draft has got to continue it up to their end. -/
theorem foldl_extend_continues {last : Nat}
    (faithful : TimeGrid.ExactUpTo settings.timeBase last) {segments : List Segment} {stop : Nat}
    (inside : stop ≤ last) (draft : ProgramDraft)
    (follow : Segment.Follow (Entry.span settings.timeBase draft.entries) segments stop)
    (tiles : ∀ segment ∈ segments,
      Block.Tile segment.start (schedule.blocksOf segment) segment.next) :
    Entry.Continues settings.timeBase draft.entries (segments.flatMap schedule.blocksOf) stop
      (segments.foldl (extend settings schedule) draft).entries := by
  induction segments generalizing draft with
  | nil => exact ⟨(List.append_nil _).symm, (List.append_nil _).symm, follow⟩
  | cons segment rest ih =>
      have bounds := follow.bounds (List.mem_cons_self ..)
      obtain ⟨begins, -, tail⟩ := follow
      have step := extend_continues faithful (Nat.le_trans bounds.2.2 inside) begins
        (tiles segment (List.mem_cons_self ..))
      rw [← step.span] at tail
      exact step.trans
        (ih _ tail fun other inRest => tiles other (List.mem_cons_of_mem _ inRest))

/-- Segments add the rates of their ticks, whatever becomes of the periods. -/
theorem rates_foldl_extend (draft : ProgramDraft) (segments : List Segment) :
    Entry.rates (segments.foldl (extend settings schedule) draft).entries =
      Entry.rates draft.entries ++ (segments.flatMap fun segment =>
        (schedule.blocksOf segment).flatMap Block.ticks).map Tick.dualRate := by
  induction segments generalizing draft with
  | nil => simp
  | cons segment rest ih =>
      have entered : Entry.rates (draft.enter settings schedule segment).entries =
          Entry.rates draft.entries := by rw [Entry.rates, enter_runs, Entry.rates]
      rw [List.foldl_cons, ih, extend, rates_foldl_pushBlock, entered, List.flatMap_cons,
        List.map_append, List.append_assoc]

end ProgramDraft

/-- The distance from each single tick of a program to the next one, or to the stop. -/
def Program.tickPeriods (program : Program) : List Nat :=
  periods program.timeBase program.runs

namespace Schedule

variable {schedule : Schedule} {demand : Demand} {settings : Settings}

/-- The draft of a schedule has the blocks of its segments, up to the stop. -/
theorem Serves.draft_continues (serves : schedule.Serves demand)
    (bounded : demand.Bounded schedule.stop)
    (faithful : TimeGrid.ExactUpTo settings.timeBase schedule.stop) :
    Entry.Continues settings.timeBase [] (schedule.segments.flatMap schedule.blocksOf)
      schedule.stop (schedule.draft settings).entries :=
  ProgramDraft.foldl_extend_continues faithful (Nat.le_refl _)
    { sweep := { pending := schedule.windows } } (serves.follow bounded)
    fun _ member => serves.blocks_tile bounded member

/-- The stop of a program fits in a word. -/
theorem Serves.assembled_fits (serves : schedule.Serves demand)
    (bounded : demand.Bounded schedule.stop)
    (faithful : TimeGrid.ExactUpTo settings.timeBase schedule.stop) :
    (schedule.assembled settings).nominalLength < UInt64.size := by
  have span := (serves.draft_continues bounded faithful).span
  have length : (schedule.assembled settings).nominalLength = schedule.stop := span
  rw [length]
  exact Nat.lt_of_le_of_lt faithful.le_last (by decide)

/-- The ticks of a program are those of its schedule. -/
theorem Serves.assembled_ticks (serves : schedule.Serves demand)
    (bounded : demand.Bounded schedule.stop)
    (faithful : TimeGrid.ExactUpTo settings.timeBase schedule.stop) :
    (schedule.assembled settings).ticks = schedule.gridTicks := by
  have unrolled := (serves.draft_continues bounded faithful).unrolled
  rw [List.flatMap_assoc] at unrolled
  rw [Program.ticks_eq_nominal (serves.assembled_fits bounded faithful)]
  exact unrolled

/-- The periods of a program make up the time to the stop, and none of them is zero. -/
theorem Serves.assembled_periods (serves : schedule.Serves demand)
    (bounded : demand.Bounded schedule.stop)
    (faithful : TimeGrid.ExactUpTo settings.timeBase schedule.stop) :
    (∀ period ∈ (schedule.assembled settings).tickPeriods, 1 ≤ period) ∧
      (schedule.assembled settings).tickPeriods.sum = schedule.stop := by
  have continued := serves.draft_continues bounded faithful
  have periods : (schedule.assembled settings).tickPeriods =
      Entry.periods settings.timeBase (schedule.draft settings).entries := rfl
  rw [periods]
  constructor
  · intro period member
    rw [continued.periods] at member
    simp only [Entry.periods, Program.periods, Entry.runs, List.reverse_nil, List.filterMap_nil,
      List.flatMap_nil, List.nil_append, List.mem_flatMap, List.mem_replicate] at member
    obtain ⟨block, ⟨segment, inSegments, inBlocks⟩, -, rfl⟩ := member
    exact ((serves.blocks_tile bounded inSegments).pos inBlocks).1
  · rw [Entry.periods, Program.sum_periods]
    exact continued.span

/-- The ticks of a program have the rates of those of its schedule, on every time base. -/
theorem assembled_rates (schedule : Schedule) (settings : Settings) :
    (schedule.assembled settings).ticks.map Tick.dualRate =
      schedule.gridTicks.map Tick.dualRate := by
  rw [Program.ticks, Program.ticksFrom_rates]
  exact ProgramDraft.rates_foldl_extend { sweep := { pending := schedule.windows } }
    schedule.segments

/-- A program has as many ticks as its schedule, on every time base. -/
theorem assembled_tickCount (schedule : Schedule) (settings : Settings) :
    (schedule.assembled settings).tickCount .fast = schedule.gridTicks.length := by
  rw [← Program.length_lineTicks, Program.lineTicks_fast, ← List.length_map Tick.dualRate,
    assembled_rates, List.length_map]

end Schedule

namespace Pseudoclock

variable {clock : Pseudoclock} {outputs : List Output} {stop : Nat} {settings : Settings}
  {program : Program}

theorem timeBase_program (made : clock.program outputs stop settings = .ok program) :
    program.timeBase = settings.timeBase := by
  obtain ⟨-, -, -, rfl⟩ := program_eq_ok.1 made
  rfl

/-- A program fits in a word if the seconds up to its stop are exact. -/
theorem program_fits (faithful : TimeGrid.ExactUpTo settings.timeBase stop)
    (made : clock.program outputs stop settings = .ok program) :
    program.nominalLength < UInt64.size := by
  have serves := Schedule.gather_serves clock outputs stop
  obtain ⟨timely, -, -, rfl⟩ := program_eq_ok.1 made
  exact serves.assembled_fits timely.bounded faithful

/-- The ticks of a program increase. -/
theorem ticks_increasing (faithful : TimeGrid.ExactUpTo settings.timeBase stop)
    (made : clock.program outputs stop settings = .ok program) :
    program.ticks.Pairwise fun first second => first.position < second.position := by
  have serves := Schedule.gather_serves clock outputs stop
  obtain ⟨timely, -, -, rfl⟩ := program_eq_ok.1 made
  rw [serves.assembled_ticks timely.bounded faithful]
  exact List.pairwise_map.1 (serves.gridTicks_increasing timely.bounded)

/-- The dual-rate ticks of a program are the boundaries in order. -/
theorem dualTicks_eq (faithful : TimeGrid.ExactUpTo settings.timeBase stop)
    (made : clock.program outputs stop settings = .ok program) :
    (program.ticks.filter Tick.dualRate).map Tick.position =
      (Schedule.gather clock outputs stop).boundaries.items := by
  have serves := Schedule.gather_serves clock outputs stop
  obtain ⟨timely, -, -, rfl⟩ := program_eq_ok.1 made
  rw [serves.assembled_ticks timely.bounded faithful, Schedule.gridTicks_dual]

/-- A tick of a program is on both lines exactly if it is at a boundary. -/
theorem dualRate_iff (faithful : TimeGrid.ExactUpTo settings.timeBase stop)
    (made : clock.program outputs stop settings = .ok program) {tick : Tick}
    (member : tick ∈ program.ticks) :
    tick.dualRate = true ↔ tick.position ∈ (Demand.of clock outputs).boundaries := by
  have dual := dualTicks_eq faithful made
  rw [← (Schedule.gather_serves clock outputs stop).boundaries, ← dual]
  constructor
  · intro rate
    exact List.mem_map_of_mem (List.mem_filter.2 ⟨member, rate⟩)
  · intro boundary
    obtain ⟨other, isDual, same⟩ := List.mem_map.1 boundary
    obtain ⟨otherIn, rate⟩ := List.mem_filter.1 isDual
    obtain ⟨ordered, items⟩ : ∃ ordered : Ordered Tick.position, ordered.items = program.ticks :=
      ⟨⟨program.ticks, ticks_increasing faithful made⟩, rfl⟩
    rw [← items] at otherIn member
    rw [← Ordered.eq_of_position_eq otherIn member same]
    exact rate

/-- The positions of a program's ticks are those before the stop at which a tick is asked for. -/
theorem ticks_positions (faithful : TimeGrid.ExactUpTo settings.timeBase stop)
    (made : clock.program outputs stop settings = .ok program) :
    program.ticks.map Tick.position =
      (List.range stop).filter fun position => (Demand.of clock outputs).TicksAt position := by
  have serves := Schedule.gather_serves clock outputs stop
  obtain ⟨timely, compatible, -, rfl⟩ := program_eq_ok.1 made
  rw [serves.assembled_ticks timely.bounded faithful,
    serves.gridTicks_positions timely.bounded ((serves.agree_iff timely.bounded).2 compatible)]
  rfl

/-- A program ticks at a position exactly if the demand asks for it there. -/
theorem exists_tick_iff (faithful : TimeGrid.ExactUpTo settings.timeBase stop)
    (made : clock.program outputs stop settings = .ok program) {position : Nat} :
    (∃ tick ∈ program.ticks, tick.position = position) ↔
      position < stop ∧ (Demand.of clock outputs).TicksAt position := by
  rw [← List.mem_map, ticks_positions faithful made, List.mem_filter, List.mem_range,
    decide_eq_true_eq]

/-- Both lines tick at every boundary. -/
theorem exists_lineTick (faithful : TimeGrid.ExactUpTo settings.timeBase stop)
    (made : clock.program outputs stop settings = .ok program) (line : ClockLine)
    {boundary : Nat} (member : boundary ∈ (Demand.of clock outputs).boundaries) :
    ∃ tick ∈ program.lineTicks line, tick.position = boundary := by
  have ordered : boundary ∈ (Schedule.gather clock outputs stop).boundaries.items :=
    ((Schedule.gather_serves clock outputs stop).boundaries boundary).2 member
  rw [← dualTicks_eq faithful made] at ordered
  obtain ⟨tick, dual, rfl⟩ := List.mem_map.1 ordered
  obtain ⟨inTicks, rate⟩ := List.mem_filter.1 dual
  refine ⟨tick, List.mem_filter.2 ⟨inTicks, ?_⟩, rfl⟩
  simp [rate]

end Pseudoclock

end Metronome
