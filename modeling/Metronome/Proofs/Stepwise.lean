/-
Module: Metronome.Proofs.Stepwise
Purpose: A program has the events of a clock that finds each tick from the one before it, without
  blocks or runs.
Trusted boundary: none
Main exports:
  Demand.upcoming, Demand.following, Demand.stepwise, Schedule.Serves.following_eq,
  Schedule.Serves.stepwise_segment, Schedule.Serves.stepwise_eq, Pseudoclock.program_stepwise
-/
import Metronome.Proofs.Emission

/-!
The walk over a schedule counts the samples of a segment by a division and emits them as at most
four blocks.  The clock here looks at the demand alone, at every single tick: when the next boundary
is, and which ramps have been active since the last one.  Inside a segment these do not change, so
one tick of the clock can be compared with one sample of the blocks; the induction is on the samples
that are left, and then on the segments.
-/

namespace Metronome

namespace Demand

/-- The first boundary after a position, or the stop if there is none. -/
def upcoming (demand : Demand) (stop position : Nat) : Nat :=
  (demand.boundaries.filter fun boundary => position < boundary).min?.getD stop

/-- Where the tick after that at a position is.  While ramps are active and the last of their ends
is ahead it comes one sample period later, or at that end or at the next boundary, whichever is
first.  Otherwise it comes at the next boundary. -/
def following (demand : Demand) (stop position : Nat) : Nat :=
  let next := demand.upcoming stop position
  match (demand.active position).head?, ((demand.active position).map Window.stop).max? with
  | some window, some last =>
      if position < min last next then min (position + window.period) (min last next) else next
  | _, _ => next

/-- The events of a clock that makes its ticks one by one, from a position on.  A tick lasts until
the next one.  At a boundary it is on both lines, after the wait that is there. -/
def stepwise (demand : Demand) (waits : Ordered Wait.position) (timeBase : Float)
    (stop position : Nat) : List Event :=
  let next := demand.following stop position
  if _ahead : position < next ∧ position < stop then
    (waits.find? position).toList.map Wait.event ++
      .tick (TimeGrid.seconds (next - position) timeBase) (position ∈ demand.boundaries) ::
        stepwise demand waits timeBase stop next
  else []
termination_by stop - position

example : (Demand.of .gated Output.staggered).following 40 5 = 15 := by decide

/-- One step of the clock that makes single ticks. -/
theorem stepwise_of_ahead {demand : Demand} {waits : Ordered Wait.position} {timeBase : Float}
    {stop position : Nat} (ahead : position < demand.following stop position)
    (before : position < stop) :
    demand.stepwise waits timeBase stop position =
      (waits.find? position).toList.map Wait.event ++
        .tick (TimeGrid.seconds (demand.following stop position - position) timeBase)
          (position ∈ demand.boundaries) ::
        demand.stepwise waits timeBase stop (demand.following stop position) := by
  rw [stepwise]
  exact dif_pos ⟨ahead, before⟩

/-- From the stop on there are no events. -/
theorem stepwise_stop (demand : Demand) (waits : Ordered Wait.position) (timeBase : Float)
    (stop : Nat) : demand.stepwise waits timeBase stop stop = [] := by
  rw [stepwise]
  exact dif_neg fun ahead => Nat.lt_irrefl stop ahead.2

end Demand

/-- The events of the blocks of a segment with samples. -/
theorem Segment.blocks_events (segment : Segment) (step limit : Nat) (timeBase : Float) :
    (segment.blocks (some step) limit).flatMap (Block.events timeBase) =
      (if segment.interior (some step) limit = 0 then
        [.tick (TimeGrid.seconds (limit - segment.start) timeBase) true]
      else
        .tick (TimeGrid.seconds step timeBase) true ::
          List.replicate (segment.interior (some step) limit - 1)
            (.tick (TimeGrid.seconds step timeBase) false) ++
          [.tick (TimeGrid.seconds
              (limit - (segment.start + segment.interior (some step) limit * step)) timeBase)
            false]) ++
      if limit < segment.next then
        [.tick (TimeGrid.seconds (segment.next - limit) timeBase) false]
      else [] := by
  unfold blocks
  rw [List.flatMap_append]
  congr 1
  · dsimp only
    split
    · rfl
    · rename_i sampled
      generalize segment.interior (some step) limit = count at sampled
      match count with
      | 0 => exact absurd rfl sampled
      | 1 => rfl
      | more + 2 =>
          have several : 1 < more + 2 := by omega
          rw [if_pos several]
          simp [Block.events]
  · split <;> rfl

namespace Schedule.Serves

variable {schedule : Schedule} {demand : Demand} {segment : Segment} {position : Nat}

/-- In a segment the next boundary is its end. -/
theorem upcoming_eq (serves : schedule.Serves demand) (bounded : demand.Bounded schedule.stop)
    (member : segment ∈ schedule.segments) (later : segment.start ≤ position)
    (before : position < segment.next) :
    demand.upcoming schedule.stop position = segment.next := by
  have follow := serves.follow bounded
  have notBefore : ∀ boundary ∈ demand.boundaries, position < boundary →
      segment.next ≤ boundary := by
    intro boundary isBoundary ahead
    obtain ⟨other, otherIn, rfl⟩ := serves.exists_start isBoundary
    have nonempty := (follow.bounds otherIn).2.1
    rcases follow.apart otherIn member with rfl | earlier | afterwards
    · omega
    · omega
    · exact afterwards
  rw [Demand.upcoming]
  rcases follow.next_eq member with last | ⟨other, otherIn, isNext⟩
  · have noBoundary : (demand.boundaries.filter fun boundary => position < boundary) = [] := by
      refine List.filter_eq_nil_iff.2 fun boundary isBoundary ahead => ?_
      have late := notBefore boundary isBoundary (of_decide_eq_true ahead)
      have inside := bounded.before boundary isBoundary
      omega
    rw [noBoundary, last]
    rfl
  · have first : (demand.boundaries.filter fun boundary => position < boundary).min? =
        some segment.next := by
      refine List.min?_eq_some_iff.2 ⟨List.mem_filter.2 ⟨?_, decide_eq_true before⟩, ?_⟩
      · rw [← isNext]
        exact serves.start_mem otherIn
      · intro boundary candidate
        obtain ⟨isBoundary, ahead⟩ := List.mem_filter.1 candidate
        exact notBefore boundary isBoundary (of_decide_eq_true ahead)
    rw [first]
    rfl

/-- In a segment the next tick comes one sample period later, or where the sampling stops; after
that, or without ramps, at the end of the segment. -/
theorem following_eq (serves : schedule.Serves demand) (bounded : demand.Bounded schedule.stop)
    (member : segment ∈ schedule.segments)
    (agree : Window.Agree (schedule.active segment.start)) (later : segment.start ≤ position)
    (before : position < segment.next) :
    demand.following schedule.stop position =
      match schedule.period segment.start with
      | none => segment.next
      | some step =>
          if position < segment.limit (schedule.active segment.start) then
            min (position + step) (segment.limit (schedule.active segment.start))
          else segment.next := by
  have active : ∀ window, window ∈ demand.active position ↔
      window ∈ schedule.active segment.start := fun _ =>
    serves.mem_active bounded member later before
  rw [Demand.following, serves.upcoming_eq bounded member later before]
  rcases segment.limit_cases (schedule.active segment.start) with ⟨noRamps, -⟩ |
    ⟨last, lastIn, lastIs, limit⟩
  · have noneActive : demand.active position = [] := by
      refine List.eq_nil_iff_forall_not_mem.2 fun window isActive => ?_
      have inSegment := (active window).1 isActive
      rw [noRamps] at inSegment
      exact absurd inSegment List.not_mem_nil
    rw [noneActive, period, noRamps]
    rfl
  · have largest : ((demand.active position).map Window.stop).max? = some last.stop := by
      refine List.max?_eq_some_iff.2 ⟨List.mem_map_of_mem ((active last).2 lastIn), ?_⟩
      intro stop isStop
      obtain ⟨window, isActive, rfl⟩ := List.mem_map.1 isStop
      exact lastIs window ((active window).1 isActive)
    have someActive : ∃ window, (demand.active position).head? = some window := by
      cases shape : demand.active position with
      | nil =>
          rw [shape] at largest
          cases largest
      | cons window rest => exact ⟨window, rfl⟩
    obtain ⟨window, first⟩ := someActive
    have common : schedule.period segment.start = some window.period :=
      (period_eq_some_iff agree).2 ⟨window, (active window).1 (List.mem_of_mem_head? first), rfl⟩
    rw [first, largest, common, limit]

/-! ### Single ticks and blocks -/

variable {timeBase : Float}

section

variable (serves : schedule.Serves demand) (bounded : demand.Bounded schedule.stop)
  (gates : ∀ wait ∈ schedule.waits.items, wait.position ∈ demand.boundaries)
  (member : segment ∈ schedule.segments)

include serves bounded member

/-- At the start of a segment the clock makes a dual-rate tick, after the wait that is there. -/
theorem stepwise_start {next : Nat}
    (isNext : demand.following schedule.stop segment.start = next) (ahead : segment.start < next) :
    demand.stepwise schedule.waits timeBase schedule.stop segment.start =
      (schedule.waits.find? segment.start).toList.map Wait.event ++
        .tick (TimeGrid.seconds (next - segment.start) timeBase) true ::
          demand.stepwise schedule.waits timeBase schedule.stop next := by
  subst isNext
  have bounds := (serves.follow bounded).bounds member
  rw [Demand.stepwise_of_ahead ahead (by omega), decide_eq_true (serves.start_mem member)]

include gates

/-- Strictly inside a segment the clock makes a fast tick. -/
theorem stepwise_inside (later : segment.start < position) (before : position < segment.next)
    {next : Nat} (isNext : demand.following schedule.stop position = next)
    (ahead : position < next) :
    demand.stepwise schedule.waits timeBase schedule.stop position =
      .tick (TimeGrid.seconds (next - position) timeBase) false ::
        demand.stepwise schedule.waits timeBase schedule.stop next := by
  subst isNext
  have inStop := ((serves.follow bounded).bounds member).2.2
  have fast : position ∉ demand.boundaries := by
    rw [serves.boundary_iff bounded member (Nat.le_of_lt later) before]
    exact Nat.ne_of_gt later
  have noWait : schedule.waits.find? position = none := by
    cases found : schedule.waits.find? position with
    | none => rfl
    | some wait =>
        obtain ⟨isWait, here⟩ := Ordered.find?_eq_some_iff.1 found
        rw [← here] at fast
        exact absurd (gates wait isWait) fast
  rw [Demand.stepwise_of_ahead ahead (Nat.lt_of_lt_of_le before inStop), noWait,
    decide_eq_false fast]
  rfl

variable (agree : Window.Agree (schedule.active segment.start)) {step limit : Nat}
  (isLimit : segment.limit (schedule.active segment.start) = limit)

include agree isLimit

/-- Where the sampling of a segment stops, one tick is left if the segment goes on. -/
theorem stepwise_limit :
    demand.stepwise schedule.waits timeBase schedule.stop limit =
      (if limit < segment.next then
        [.tick (TimeGrid.seconds (segment.next - limit) timeBase) false]
      else []) ++ demand.stepwise schedule.waits timeBase schedule.stop segment.next := by
  have sampled := serves.sampled bounded member
  rw [isLimit] at sampled
  by_cases goesOn : limit < segment.next
  · have following : demand.following schedule.stop limit = segment.next := by
      rw [serves.following_eq bounded member agree (Nat.le_of_lt sampled.start_lt) goesOn, isLimit]
      cases schedule.period segment.start with
      | none => rfl
      | some step => exact if_neg (Nat.lt_irrefl limit)
    rw [serves.stepwise_inside bounded gates member sampled.start_lt goesOn following goesOn,
      if_pos goesOn]
    rfl
  · rw [if_neg goesOn, Nat.le_antisymm sampled.le_next (Nat.le_of_not_lt goesOn)]
    rfl

variable (common : schedule.period segment.start = some step)

include common

/-- From each sample of a segment on the clock makes the samples that are left, and then one tick up
to where the sampling stops.  The induction is on the number of samples that are left. -/
theorem stepwise_samples (left : Nat) {k : Nat} (pos : 1 ≤ k)
    (total : k + left = segment.interior (some step) limit) :
    demand.stepwise schedule.waits timeBase schedule.stop (segment.start + k * step) =
      List.replicate left (.tick (TimeGrid.seconds step timeBase) false) ++
        .tick (TimeGrid.seconds
            (limit - (segment.start + segment.interior (some step) limit * step)) timeBase) false ::
          demand.stepwise schedule.waits timeBase schedule.stop limit := by
  have sampled := serves.sampled bounded member
  rw [isLimit, common] at sampled
  have start_lt := sampled.start_lt
  have le_next := sampled.le_next
  have apart := sampled.apart step rfl
  have numbered : ∀ k, k < segment.interior (some step) limit ↔
      segment.start + (k + 1) * step < limit := fun k => Segment.lt_interior_iff apart start_lt
  have following : ∀ k, segment.start + k * step < limit →
      demand.following schedule.stop (segment.start + k * step) =
        min (segment.start + (k + 1) * step) limit := by
    intro k before
    rw [serves.following_eq bounded member agree (Nat.le_add_right ..) (by omega), common,
      isLimit, Nat.succ_mul, ← Nat.add_assoc]
    exact if_pos before
  induction left generalizing k with
  | zero =>
      obtain rfl : k = segment.interior (some step) limit := total
      have positive := Nat.mul_pos pos apart
      have before : segment.start + segment.interior (some step) limit * step < limit := by
        have reached := (numbered (segment.interior (some step) limit - 1)).1 (by omega)
        rwa [Nat.sub_add_cancel pos] at reached
      have last := mt (numbered _).2 (Nat.lt_irrefl _)
      have next := following _ before
      rw [Nat.min_eq_right (by omega)] at next
      exact serves.stepwise_inside bounded gates member (by omega) (by omega) next before
  | succ left ih =>
      have positive := Nat.mul_pos pos apart
      have before := (numbered k).1 (by omega)
      have scaled : (k + 1) * step = k * step + step := Nat.succ_mul k step
      have next := following k (by omega)
      rw [Nat.min_eq_left (by omega)] at next
      have distance : segment.start + (k + 1) * step - (segment.start + k * step) = step := by omega
      rw [serves.stepwise_inside bounded gates member (by omega) (by omega) next (by omega),
        distance, ih (by omega) (by omega)]
      rfl

end

/-- Over a segment the clock makes the events of its blocks. -/
theorem stepwise_segment (serves : schedule.Serves demand) (bounded : demand.Bounded schedule.stop)
    (gates : ∀ wait ∈ schedule.waits.items, wait.position ∈ demand.boundaries)
    (member : segment ∈ schedule.segments)
    (agree : Window.Agree (schedule.active segment.start)) :
    demand.stepwise schedule.waits timeBase schedule.stop segment.start =
      schedule.eventsOf timeBase segment ++
        demand.stepwise schedule.waits timeBase schedule.stop segment.next := by
  have sampled := serves.sampled bounded member
  have nonempty := ((serves.follow bounded).bounds member).2.1
  have following := serves.following_eq bounded member agree (Nat.le_refl _) nonempty
  rw [eventsOf, blocksOf]
  generalize isLimit : segment.limit (schedule.active segment.start) = limit at *
  cases common : schedule.period segment.start with
  | none =>
      rw [common] at following
      have noRamps : schedule.active segment.start = [] := by
        rw [period, Option.map_eq_none_iff, List.head?_eq_none_iff] at common
        exact common
      rw [noRamps] at isLimit
      obtain rfl : segment.next = limit := isLimit
      rw [serves.stepwise_start bounded member following nonempty]
      simp [Segment.blocks, Block.events]
  | some step =>
      rw [common] at following sampled
      dsimp only at following
      have apart := sampled.apart step rfl
      have second : segment.start + 1 * step = segment.start + step := by rw [Nat.one_mul]
      have numbered : 0 < segment.interior (some step) limit ↔ segment.start + 1 * step < limit :=
        Segment.lt_interior_iff apart sampled.start_lt
      rw [second] at numbered
      rw [if_pos sampled.start_lt] at following
      rw [Segment.blocks_events]
      split
      · rename_i single
        rw [Nat.min_eq_right (by omega)] at following
        rw [serves.stepwise_start bounded member following sampled.start_lt,
          serves.stepwise_limit bounded gates member agree isLimit]
        simp only [List.append_assoc, List.cons_append, List.nil_append]
      · rename_i several
        rw [Nat.min_eq_left (by omega)] at following
        rw [serves.stepwise_start bounded member following (by omega), ← second,
          serves.stepwise_samples bounded gates member agree isLimit common
            (segment.interior (some step) limit - 1) (Nat.le_refl 1) (by omega),
          serves.stepwise_limit bounded gates member agree isLimit, second,
          Nat.add_sub_cancel_left]
        simp only [List.append_assoc, List.cons_append, List.nil_append]

/-- The clock that makes single ticks has the events of the segments. -/
theorem stepwise_eq (serves : schedule.Serves demand) (bounded : demand.Bounded schedule.stop)
    (gates : ∀ wait ∈ schedule.waits.items, wait.position ∈ demand.boundaries)
    (agree : ∀ segment ∈ schedule.segments, Window.Agree (schedule.active segment.start))
    (timeBase : Float) :
    demand.stepwise schedule.waits timeBase schedule.stop 0 =
      schedule.segments.flatMap (schedule.eventsOf timeBase) := by
  have walked : ∀ segments : List Segment, segments ⊆ schedule.segments → ∀ start,
      Segment.Follow start segments schedule.stop →
      demand.stepwise schedule.waits timeBase schedule.stop start =
        segments.flatMap (schedule.eventsOf timeBase) := by
    intro segments
    induction segments with
    | nil =>
        intro _ start follow
        obtain rfl : start = schedule.stop := follow
        exact demand.stepwise_stop ..
    | cons segment rest ih =>
        intro inSchedule start follow
        obtain ⟨rfl, -, tail⟩ := follow
        obtain ⟨member, others⟩ := List.cons_subset.1 inSchedule
        rw [serves.stepwise_segment bounded gates member (agree segment member),
          ih others segment.next tail, List.flatMap_cons]
  exact walked schedule.segments (List.Subset.refl _) 0 (serves.follow bounded)

end Schedule.Serves

namespace Pseudoclock

variable {clock : Pseudoclock} {outputs : List Output} {stop : Nat} {settings : Settings}
  {program : Program}

/-- A tick on the fast line alone lies in the domain of a ramp, or at the last of the ends of the
ramps that have been active since the last boundary. -/
theorem fastTick_cases (faithful : TimeGrid.ExactUpTo settings.timeBase stop)
    (made : clock.program outputs stop settings = .ok program) {tick : Tick}
    (member : tick ∈ program.ticks) (fast : tick.dualRate = false) :
    (∃ window ∈ (Demand.of clock outputs).windows, window.covers tick.position = true) ∨
      (∃ window ∈ (Demand.of clock outputs).active tick.position,
        window.stop = tick.position) ∧
      ∀ window ∈ (Demand.of clock outputs).active tick.position, window.stop ≤ tick.position := by
  obtain ⟨timely, -, -, -⟩ := program_eq_ok.1 made
  obtain ⟨-, asked⟩ := (exists_tick_iff faithful made).1 ⟨tick, member, rfl⟩
  rcases asked with boundary | ⟨-, window, active, goesOn⟩ | closing
  · rw [← dualRate_iff faithful made member, fast] at boundary
    cases boundary
  · obtain ⟨inWindows, started, -⟩ := Demand.mem_active.1 active
    have before := (Demand.latest_spec timely.bounded.zero tick.position).2.1
    exact Or.inl ⟨window, inWindows, Window.covers_iff.2 ⟨by omega, goesOn⟩⟩
  · exact Or.inr closing

/-- A program is what the events of a clock that makes its ticks one by one are compressed to, but
for the origin times.  So a tick on the fast line alone lies in the domain of a ramp, or it closes
the ramps that have been active since the last boundary, at the last of their ends. -/
theorem program_stepwise (faithful : TimeGrid.ExactUpTo settings.timeBase stop)
    (made : clock.program outputs stop settings = .ok program) :
    program.unstamped = Program.compress settings.timeBase
        (TimeGrid.seconds stop settings.timeBase)
        ((Demand.of clock outputs).stepwise clock.waits settings.timeBase stop 0) ∧
      ∀ tick ∈ program.ticks, tick.dualRate = false →
        (∃ window ∈ (Demand.of clock outputs).windows, window.covers tick.position = true) ∨
          (∃ window ∈ (Demand.of clock outputs).active tick.position,
            window.stop = tick.position) ∧
          ∀ window ∈ (Demand.of clock outputs).active tick.position,
            window.stop ≤ tick.position := by
  refine ⟨?_, fun tick member fast => fastTick_cases faithful made member fast⟩
  have serves := Schedule.gather_serves clock outputs stop
  obtain ⟨timely, compatible, -, rfl⟩ := program_eq_ok.1 made
  have walked := serves.assembled_unstamped timely.bounded faithful.lt_word
    (faithful.isNaN timely.positive)
  have stepwise := serves.stepwise_eq timely.bounded
    (fun _ => Demand.wait_mem_boundaries outputs) ((serves.agree_iff timely.bounded).2 compatible)
    settings.timeBase
  rw [walked, ← stepwise]
  rfl

/-- The program of the gated clock has two waits among its single ticks. -/
theorem gated_stepwise : ∃ program, gated.program Output.staggered 40 {} = .ok program ∧
    program.unstamped = Program.compress 1000000000 (TimeGrid.seconds 40 1000000000)
      ((Demand.of gated Output.staggered).stepwise gated.waits 1000000000 40 0) := by
  have succeeds : (gated.program Output.staggered 40 {}).isOk = true := by decide +kernel
  obtain ⟨program, made⟩ := Checks.isOk_iff.1 succeeds
  exact ⟨program, made, (program_stepwise (by decide +kernel) made).1⟩

end Pseudoclock

end Metronome
