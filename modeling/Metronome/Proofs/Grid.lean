/-
Module: Metronome.Proofs.Grid
Purpose: The ticks of a schedule on the grid are exactly those that the demand asks for.
Trusted boundary: none
Main exports:
  Window.Agree, Schedule.active, Schedule.blocksOf, Schedule.gridTicks,
  Schedule.Serves.gridTicks_increasing, Schedule.Serves.gridTicks_dual,
  Schedule.Serves.gridTicks_positions, Schedule.Serves.agree_iff
-/
import Mathlib.Data.List.Sort
import Metronome.Proofs.Schedule
import Metronome.Proofs.Segment

/-!
The blocks of a schedule are written down here without the walk that finds them: the active ramps
of a segment are looked up in the whole list.  Their ticks increase, the dual-rate ones are the
boundaries, and the positions are those of `Demand.TicksAt` before the stop.
-/

namespace Metronome

namespace Window

/-- Ramps that need the same sample period. -/
def Agree (windows : List Window) : Prop :=
  ∀ first ∈ windows, ∀ second ∈ windows, first.period = second.period

/-- Ramps have a common period exactly if they agree, and then it is that of the first. -/
theorem commonPeriod_eq_ok {timeBase : Float} {position : Nat} {windows : List Window}
    {period : Option Nat} :
    commonPeriod timeBase position windows = .ok period ↔
      Agree windows ∧ period = windows.head?.map Window.period := by
  cases windows with
  | nil =>
      simp only [commonPeriod, Except.ok.injEq, List.head?_nil, Option.map_none]
      exact ⟨fun same => ⟨fun _ member => absurd member List.not_mem_nil, same.symm⟩,
        fun same => same.2.symm⟩
  | cons first rest =>
      have agree_iff : Agree (first :: rest) ↔ ∀ window ∈ rest, window.period = first.period := by
        constructor
        · intro agree window inRest
          exact agree window (List.mem_cons_of_mem _ inRest) first (List.mem_cons_self ..)
        · intro same one oneIn two twoIn
          have likeFirst : ∀ window ∈ first :: rest, window.period = first.period := by
            intro window member
            rcases List.mem_cons.1 member with rfl | inRest
            · rfl
            · exact same window inRest
          rw [likeFirst one oneIn, likeFirst two twoIn]
      rw [commonPeriod, agree_iff]
      cases found : rest.find? fun window => window.period ≠ first.period with
      | none =>
          have same : ∀ window ∈ rest, window.period = first.period := by
            simpa using List.find?_eq_none.1 found
          simp only [Except.ok.injEq, List.head?_cons, Option.map_some]
          exact ⟨fun equal => ⟨same, equal.symm⟩, fun both => both.2.symm⟩
      | some other =>
          have differs : other.period ≠ first.period := by simpa using List.find?_some found
          simp only [reduceCtorEq, false_iff]
          intro common
          obtain ⟨same, -⟩ := common
          exact differs (same other (List.mem_of_find?_eq_some found))

end Window

/-- Where the sampling of a segment stops: with the segment if no ramp is active, and otherwise
where the last of them ends, if that is earlier. -/
theorem Segment.limit_cases (segment : Segment) (active : List Window) :
    (active = [] ∧ segment.limit active = segment.next) ∨
      ∃ last ∈ active, (∀ window ∈ active, window.stop ≤ last.stop) ∧
        segment.limit active = min last.stop segment.next := by
  unfold limit
  cases largest : (active.map Window.stop).max? with
  | none =>
      rw [List.max?_eq_none_iff, List.map_eq_nil_iff] at largest
      exact Or.inl ⟨largest, rfl⟩
  | some stop =>
      obtain ⟨member, bound⟩ := List.max?_eq_some_iff.1 largest
      obtain ⟨last, inActive, rfl⟩ := List.mem_map.1 member
      exact Or.inr ⟨last, inActive,
        fun window present => bound _ (List.mem_map.2 ⟨window, present, rfl⟩), rfl⟩

namespace Schedule

/-- The ramps that are active at a position, in the order of their starts. -/
def active (schedule : Schedule) (position : Nat) : List Window :=
  schedule.windows.filter fun window => window.covers position

/-- The sample period at a boundary, if ramps are active there. -/
def period (schedule : Schedule) (position : Nat) : Option Nat :=
  (schedule.active position).head?.map Window.period

/-- If the active ramps agree, each of them has the sample period. -/
theorem period_eq_some_iff {schedule : Schedule} {position step : Nat}
    (agree : Window.Agree (schedule.active position)) :
    schedule.period position = some step ↔
      ∃ window ∈ schedule.active position, window.period = step := by
  rw [Schedule.period]
  cases first : (schedule.active position).head? with
  | none =>
      rw [List.head?_eq_none_iff] at first
      simp [first]
  | some window =>
      have inActive := List.mem_of_mem_head? first
      simp only [Option.map_some, Option.some.injEq]
      constructor
      · intro same
        exact ⟨window, inActive, same⟩
      · intro shared
        obtain ⟨other, otherIn, rfl⟩ := shared
        exact agree window inActive other otherIn

/-- The blocks of a segment. -/
def blocksOf (schedule : Schedule) (segment : Segment) : List Block :=
  segment.blocks (schedule.period segment.start)
    (segment.limit (schedule.active segment.start))

/-- The fast ticks of a segment. -/
def fastTicksOf (schedule : Schedule) (segment : Segment) : List Nat :=
  segment.fastTicks (schedule.period segment.start)
    (segment.limit (schedule.active segment.start))

/-- The single ticks of all blocks. -/
def gridTicks (schedule : Schedule) : List Tick :=
  schedule.segments.flatMap fun segment => (schedule.blocksOf segment).flatMap Block.ticks

theorem gridTicks_eq (schedule : Schedule) :
    schedule.gridTicks = schedule.segments.flatMap fun segment =>
      ⟨segment.start, true⟩ ::
        (schedule.fastTicksOf segment).map fun position => ⟨position, false⟩ := by
  unfold gridTicks blocksOf fastTicksOf
  simp only [Segment.blocks_ticks]

/-- The dual-rate ticks are the boundaries. -/
theorem gridTicks_dual (schedule : Schedule) :
    (schedule.gridTicks.filter Tick.dualRate).map Tick.position =
      schedule.boundaries.items := by
  have starts := segmentsOf_starts schedule.stop schedule.boundaries.items
  rw [gridTicks_eq, List.filter_flatMap, List.map_flatMap]
  have single : ∀ segment : Segment,
      ((⟨segment.start, true⟩ ::
        (schedule.fastTicksOf segment).map fun position => (⟨position, false⟩ : Tick)).filter
          Tick.dualRate).map Tick.position = [segment.start] := by
    intro segment
    simp [List.filter_map, Function.comp_def]
  simp only [single]
  rw [← List.map_eq_flatMap]
  exact starts

namespace Serves

variable {schedule : Schedule} {demand : Demand}

/-- The segments of a schedule lead from the start to the stop. -/
theorem follow (serves : schedule.Serves demand) (bounded : demand.Bounded schedule.stop) :
    Segment.Follow 0 schedule.segments schedule.stop := by
  have increasing := schedule.boundaries.increasing
  have zero : 0 ∈ schedule.boundaries.items := (serves.boundaries 0).2 bounded.zero
  have before : ∀ boundary ∈ schedule.boundaries.items, boundary < schedule.stop :=
    fun boundary member => bounded.before boundary ((serves.boundaries boundary).1 member)
  unfold segments
  generalize schedule.boundaries.items = items at *
  cases items with
  | nil => exact absurd zero List.not_mem_nil
  | cons first rest =>
      have first_zero : first = 0 := by
        rcases List.mem_cons.1 zero with here | inRest
        · exact here.symm
        · exact absurd ((List.pairwise_cons.1 increasing).1 0 inRest) (Nat.not_lt_zero _)
      subst first_zero
      exact segmentsOf_follow increasing before

/-- A segment starts at a boundary. -/
theorem start_mem (serves : schedule.Serves demand) {segment : Segment}
    (member : segment ∈ schedule.segments) : segment.start ∈ demand.boundaries := by
  apply (serves.boundaries segment.start).1
  rw [← segmentsOf_starts schedule.stop schedule.boundaries.items]
  exact List.mem_map.2 ⟨segment, member, rfl⟩

/-- Every boundary starts a segment. -/
theorem exists_start (serves : schedule.Serves demand) {boundary : Nat}
    (member : boundary ∈ demand.boundaries) :
    ∃ segment ∈ schedule.segments, segment.start = boundary := by
  have ordered := (serves.boundaries boundary).2 member
  rw [← segmentsOf_starts schedule.stop schedule.boundaries.items] at ordered
  exact List.mem_map.1 ordered

/-- No ramp starts inside a segment. -/
theorem starts_apart (serves : schedule.Serves demand) (bounded : demand.Bounded schedule.stop) :
    ∀ segment ∈ schedule.segments, ∀ window ∈ schedule.windows,
      window.start ≤ segment.start ∨ segment.next ≤ window.start := by
  intro segment member window inWindows
  have follow := serves.follow bounded
  obtain ⟨other, otherIn, starts⟩ :=
    serves.exists_start (bounded.starts window ((serves.windows window).1 inWindows))
  have otherAhead := (follow.bounds otherIn).2.1
  rcases follow.apart otherIn member with rfl | earlier | later
  · omega
  · omega
  · omega

/-- In a segment the last boundary is its start. -/
theorem latest_eq (serves : schedule.Serves demand) (bounded : demand.Bounded schedule.stop)
    {segment : Segment} (member : segment ∈ schedule.segments) {position : Nat}
    (later : segment.start ≤ position) (before : position < segment.next) :
    demand.latest position = segment.start := by
  apply Demand.latest_eq (serves.start_mem member) later
  intro other boundary reached
  obtain ⟨around, aroundIn, rfl⟩ := serves.exists_start boundary
  have nonempty := ((serves.follow bounded).bounds aroundIn).2.1
  rcases (serves.follow bounded).apart aroundIn member with rfl | earlier | afterwards
  · exact Nat.le_refl _
  · omega
  · omega

/-- In a segment the ramps of the demand that are active are those of the schedule at its start. -/
theorem mem_active (serves : schedule.Serves demand) (bounded : demand.Bounded schedule.stop)
    {segment : Segment} (member : segment ∈ schedule.segments) {position : Nat}
    (later : segment.start ≤ position) (before : position < segment.next) {window : Window} :
    window ∈ demand.active position ↔ window ∈ schedule.active segment.start := by
  rw [Demand.mem_active, serves.latest_eq bounded member later before, active, List.mem_filter,
    Window.covers_iff, serves.windows]

theorem mem_active_start (serves : schedule.Serves demand) {position : Nat} {window : Window} :
    window ∈ schedule.active position ↔
      window ∈ demand.windows ∧ window.start ≤ position ∧ position < window.stop := by
  rw [active, List.mem_filter, Window.covers_iff, serves.windows]

/-- The sampled part of every segment is not empty and does not reach past it. -/
theorem sampled (serves : schedule.Serves demand) (bounded : demand.Bounded schedule.stop)
    {segment : Segment} (member : segment ∈ schedule.segments) :
    segment.Sampled (schedule.period segment.start)
      (segment.limit (schedule.active segment.start)) := by
  have ahead := ((serves.follow bounded).bounds member).2.1
  constructor
  · rcases segment.limit_cases (schedule.active segment.start) with ⟨-, limit⟩ |
      ⟨last, inActive, -, limit⟩
    · omega
    · have goesOn := (serves.mem_active_start.1 inActive).2.2
      omega
  · rcases segment.limit_cases (schedule.active segment.start) with ⟨-, limit⟩ |
      ⟨last, -, -, limit⟩
    · omega
    · omega
  · intro step found
    obtain ⟨window, first, rfl⟩ := Option.map_eq_some_iff.1 found
    have inActive := List.mem_of_mem_head? first
    exact bounded.sampled window (serves.mem_active_start.1 inActive).1

/-- The ticks of a schedule increase. -/
theorem gridTicks_increasing (serves : schedule.Serves demand)
    (bounded : demand.Bounded schedule.stop) :
    (schedule.gridTicks.map Tick.position).Pairwise (· < ·) := by
  have inside : ∀ segment ∈ schedule.segments, ∀ position ∈ schedule.fastTicksOf segment,
      segment.start < position ∧ position < segment.next := fun segment member _ =>
    Segment.fastTicks_inside (serves.sampled bounded member)
  rw [gridTicks_eq, List.map_flatMap, List.pairwise_flatMap]
  constructor
  · intro segment member
    simp only [List.map_cons, List.map_map, Function.comp_def, List.map_id']
    exact List.pairwise_cons.2 ⟨fun position fast => (inside segment member position fast).1,
      Segment.fastTicks_increasing (serves.sampled bounded member)⟩
  · refine List.Pairwise.imp_of_mem ?_ (serves.follow bounded).ordered
    intro one two oneIn twoIn follows
    simp only [List.map_cons, List.map_map, Function.comp_def, List.map_id', List.mem_cons]
    have ahead := ((serves.follow bounded).bounds oneIn).2.1
    rintro first (rfl | firstFast) second (rfl | secondFast)
    · omega
    · have := inside two twoIn second secondFast
      omega
    · have := inside one oneIn first firstFast
      omega
    · have := inside one oneIn first firstFast
      have := inside two twoIn second secondFast
      omega

/-- The blocks of a schedule leave no gap. -/
theorem blocks_tile (serves : schedule.Serves demand) (bounded : demand.Bounded schedule.stop)
    {segment : Segment} (member : segment ∈ schedule.segments) :
    Block.Tile segment.start (schedule.blocksOf segment) segment.next :=
  Segment.blocks_tile (serves.sampled bounded member)

/-- The only boundary in a segment is its start. -/
theorem boundary_iff (serves : schedule.Serves demand) (bounded : demand.Bounded schedule.stop)
    {segment : Segment} (member : segment ∈ schedule.segments) {position : Nat}
    (later : segment.start ≤ position) (before : position < segment.next) :
    position ∈ demand.boundaries ↔ position = segment.start := by
  constructor
  · intro boundary
    rw [← serves.latest_eq bounded member later before, Demand.latest_self boundary]
  · intro here
    rw [here]
    exact serves.start_mem member

/-- A position of a segment with agreeing ramps has a tick exactly if the demand asks for one. -/
theorem mem_segment_iff (serves : schedule.Serves demand)
    (bounded : demand.Bounded schedule.stop) {segment : Segment}
    (member : segment ∈ schedule.segments)
    (agree : Window.Agree (schedule.active segment.start)) {position : Nat}
    (later : segment.start ≤ position) (before : position < segment.next) :
    (position = segment.start ∨ position ∈ schedule.fastTicksOf segment) ↔
      demand.TicksAt position := by
  have latest := serves.latest_eq bounded member later before
  have active : ∀ window, window ∈ demand.active position ↔
      window ∈ schedule.active segment.start := fun _ =>
    serves.mem_active bounded member later before
  have boundary := serves.boundary_iff bounded member later before
  have common : ∀ step, schedule.period segment.start = some step ↔
      ∃ window ∈ schedule.active segment.start, window.period = step :=
    fun _ => period_eq_some_iff agree
  by_cases here : position = segment.start
  · exact iff_of_true (Or.inl here) (Or.inl (boundary.2 here))
  rw [fastTicksOf, Segment.mem_fastTicks (serves.sampled bounded member), Demand.TicksAt,
    boundary, latest]
  simp only [active, common, here, false_or]
  have inside : segment.start < position := Nat.lt_of_le_of_ne later (Ne.symm here)
  rcases segment.limit_cases (schedule.active segment.start) with ⟨none, limit⟩ |
    ⟨last, lastIn, lastIs, limit⟩
  · rw [limit, none]
    simp only [List.not_mem_nil, false_and, exists_false, and_false, false_or, iff_false]
    omega
  · rw [limit]
    constructor
    · intro ticks
      rcases ticks with ⟨-, sampled, _, ⟨window, windowIn, rfl⟩, divides⟩ | ⟨closes, goesOn⟩
      · exact Or.inl ⟨⟨window, windowIn, divides⟩, last, lastIn, by omega⟩
      · exact Or.inr ⟨⟨last, lastIn, by omega⟩, fun window windowIn => by
          have := lastIs window windowIn
          omega⟩
    · intro asked
      rcases asked with ⟨⟨window, windowIn, divides⟩, other, otherIn, goesOn⟩ |
        ⟨⟨window, windowIn, ends⟩, all⟩
      · have := lastIs other otherIn
        exact Or.inl ⟨inside, by omega, _, ⟨window, windowIn, rfl⟩, divides⟩
      · have := lastIs window windowIn
        have := all last lastIn
        exact Or.inr ⟨by omega, by omega⟩

/-- The positions of a schedule's ticks, if its ramps agree: those before the stop at which the
demand asks for a tick. -/
theorem gridTicks_positions (serves : schedule.Serves demand)
    (bounded : demand.Bounded schedule.stop)
    (agree : ∀ segment ∈ schedule.segments, Window.Agree (schedule.active segment.start)) :
    schedule.gridTicks.map Tick.position =
      (List.range schedule.stop).filter fun position => demand.TicksAt position := by
  refine List.Pairwise.eq_of_mem_iff (serves.gridTicks_increasing bounded)
    (List.pairwise_lt_range.filter _) ?_
  · intro position
    have member_iff : position ∈ schedule.gridTicks.map Tick.position ↔
        ∃ segment ∈ schedule.segments,
          position = segment.start ∨ position ∈ schedule.fastTicksOf segment := by
      rw [gridTicks_eq, List.map_flatMap]
      simp [List.mem_flatMap, Function.comp_def]
    rw [member_iff, List.mem_filter, List.mem_range, decide_eq_true_iff]
    constructor
    · intro ticked
      obtain ⟨segment, member, ticks⟩ := ticked
      have bounds := (serves.follow bounded).bounds member
      have inside : segment.start ≤ position ∧ position < segment.next := by
        rcases ticks with rfl | fast
        · omega
        · have := Segment.fastTicks_inside (serves.sampled bounded member) fast
          omega
      exact ⟨by omega, (serves.mem_segment_iff bounded member (agree segment member) inside.1
        inside.2).1 ticks⟩
    · intro wanted
      obtain ⟨before, asked⟩ := wanted
      obtain ⟨segment, member, later, inside⟩ :=
        (serves.follow bounded).exists_around (Nat.zero_le position) before
      exact ⟨segment, member, (serves.mem_segment_iff bounded member (agree segment member) later
        inside).2 asked⟩

/-- A schedule whose ramps agree has as many ticks as the demand asks for. -/
theorem gridTicks_length (serves : schedule.Serves demand)
    (bounded : demand.Bounded schedule.stop)
    (agree : ∀ segment ∈ schedule.segments, Window.Agree (schedule.active segment.start)) :
    schedule.gridTicks.length = demand.tickCount schedule.stop := by
  rw [← List.length_map (f := Tick.position), serves.gridTicks_positions bounded agree,
    Demand.tickCount, List.countP_eq_length_filter]

/-- Ramps agree in every segment exactly if those of the demand are compatible.  The later start of
two overlapping ramps is a boundary at which both are active. -/
theorem agree_iff (serves : schedule.Serves demand) (bounded : demand.Bounded schedule.stop) :
    (∀ segment ∈ schedule.segments, Window.Agree (schedule.active segment.start)) ↔
      demand.Compatible := by
  constructor
  · intro agree first firstIn second secondIn firstEarly secondEarly
    obtain ⟨segment, member, start⟩ :=
      serves.exists_start (bounded.later_start_mem firstIn secondIn)
    have firstNonempty := bounded.nonempty first firstIn
    have secondNonempty := bounded.nonempty second secondIn
    apply agree segment member
    · exact serves.mem_active_start.2 ⟨firstIn, by omega, by omega⟩
    · exact serves.mem_active_start.2 ⟨secondIn, by omega, by omega⟩
  · intro same segment _ first firstIn second secondIn
    obtain ⟨firstIn, _, _⟩ := serves.mem_active_start.1 firstIn
    obtain ⟨secondIn, _, _⟩ := serves.mem_active_start.1 secondIn
    exact same first firstIn second secondIn (by omega) (by omega)

end Serves

end Schedule

end Metronome
