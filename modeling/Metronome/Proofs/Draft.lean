/-
Module: Metronome.Proofs.Draft
Purpose: The walk over the segments of a schedule fails only for ramps in conflict and for too many
  ticks, and otherwise appends the blocks of every segment.
Trusted boundary: none
Main exports:
  Sweep.Swept, Sweep.Swept.advance_active, ProgramDraft.extend, ProgramDraft.pushSegment_eq_ok,
  ProgramDraft.foldlM_pushSegment_eq_ok, Schedule.draft, Schedule.Serves.walk_eq_ok,
  Pseudoclock.program_eq_ok
-/
import Metronome.Proofs.Chronology
import Metronome.Proofs.Grid

/-!
A step of the walk depends on the ramps swept up so far, on the ticks counted so far and on the
entries made so far.  `Sweep.Swept` says what the first of these is at a boundary, so the step
can be described by the ramps that are active there; the ticks only grow, so the limit holds at
every step if it holds at the end.
-/

namespace Metronome

namespace Sweep

/-- The ramps before a boundary is visited: those that start at it or later are still to come, and
of the earlier ones at least those that go on are active. -/
structure Swept (windows : List Window) (boundary : Nat) (sweep : Sweep) : Prop where
  pending : sweep.pending = windows.filter fun window => boundary ≤ window.start
  active : (sweep.active.filter fun window => boundary < window.stop) =
    windows.filter fun window => window.start < boundary && boundary < window.stop

variable {windows : List Window} {boundary : Nat} {sweep : Sweep}

/-- Before the first boundary every ramp is still to come. -/
theorem swept_start (windows : List Window) : Swept windows 0 { pending := windows } where
  pending := by simp
  active := by simp

/-- Sorted ramps are those that start before a boundary and then the others. -/
theorem split_at (sorted : windows.Pairwise fun first second => first.start ≤ second.start)
    (boundary : Nat) :
    windows = (windows.filter fun window => window.start < boundary) ++
      windows.filter fun window => boundary ≤ window.start := by
  have closed : windows.Pairwise fun first second =>
      decide (second.start < boundary) = true → decide (first.start < boundary) = true := by
    apply sorted.imp
    intro le early
    simp only [decide_eq_true_eq] at early ⊢
    omega
  have halves := List.takeWhile_append_dropWhile
    (p := fun window : Window => decide (window.start < boundary)) (l := windows)
  rw [Chronology.takeWhile_eq_filter closed, Chronology.dropWhile_eq_filter closed] at halves
  refine halves.symm.trans (congrArg _ (List.filter_congr fun window _ => ?_))
  rw [Bool.eq_iff_iff]
  simp only [Bool.not_eq_true', decide_eq_false_iff_not, decide_eq_true_eq, Nat.not_lt]

/-- Of the ramps to come those that have started stand first. -/
theorem Swept.pending_closed (swept : Swept windows boundary sweep)
    (sorted : windows.Pairwise fun first second => first.start ≤ second.start) :
    sweep.pending.Pairwise fun first second =>
      decide (second.start ≤ boundary) = true → decide (first.start ≤ boundary) = true := by
  rw [swept.pending]
  apply (sorted.filter _).imp
  intro le early
  simp only [decide_eq_true_eq] at early ⊢
  omega

/-- Visiting a boundary makes exactly the ramps active whose domain it belongs to. -/
theorem Swept.advance_active (swept : Swept windows boundary sweep)
    (sorted : windows.Pairwise fun first second => first.start ≤ second.start)
    (nonempty : ∀ window ∈ windows, window.start < window.stop) :
    (sweep.advance boundary).active = windows.filter fun window => window.covers boundary := by
  have joins : (sweep.pending.takeWhile fun window => window.start ≤ boundary) =
      (windows.filter fun window => boundary ≤ window.start).filter fun window =>
        window.covers boundary := by
    rw [Chronology.takeWhile_eq_filter (swept.pending_closed sorted), swept.pending,
      List.filter_filter, List.filter_filter]
    apply List.filter_congr
    intro window member
    have ahead := nonempty window member
    rw [Bool.eq_iff_iff]
    simp only [Bool.and_eq_true, decide_eq_true_eq, Window.covers_iff]
    omega
  have goOn : (sweep.active.filter fun window => boundary < window.stop) =
      (windows.filter fun window => window.start < boundary).filter fun window =>
        window.covers boundary := by
    rw [swept.active, List.filter_filter]
    apply List.filter_congr
    intro window _
    rw [Bool.eq_iff_iff]
    simp only [Bool.and_eq_true, decide_eq_true_eq, Window.covers_iff]
    omega
  calc (sweep.advance boundary).active
      = (windows.filter fun window => window.start < boundary).filter
            (fun window => window.covers boundary) ++
          (windows.filter fun window => boundary ≤ window.start).filter
            fun window => window.covers boundary := by
        rw [← joins, ← goOn]
        rfl
    _ = windows.filter fun window => window.covers boundary := by
        rw [← List.filter_append, ← split_at sorted]

/-- A visit leads to the next boundary, if no ramp starts in between. -/
theorem Swept.next (swept : Swept windows boundary sweep)
    (sorted : windows.Pairwise fun first second => first.start ≤ second.start)
    (nonempty : ∀ window ∈ windows, window.start < window.stop) {next : Nat}
    (ahead : boundary < next)
    (clear : ∀ window ∈ windows, window.start ≤ boundary ∨ next ≤ window.start) :
    Swept windows next (sweep.advance boundary) where
  pending := by
    rw [advance, Chronology.dropWhile_eq_filter (swept.pending_closed sorted), swept.pending,
      List.filter_filter]
    apply List.filter_congr
    intro window member
    have apart := clear window member
    rw [Bool.eq_iff_iff]
    simp only [Bool.and_eq_true, Bool.not_eq_true', decide_eq_false_iff_not, decide_eq_true_eq]
    omega
  active := by
    rw [swept.advance_active sorted nonempty, List.filter_filter]
    apply List.filter_congr
    intro window member
    have apart := clear window member
    rw [Bool.eq_iff_iff]
    simp only [Bool.and_eq_true, decide_eq_true_eq, Window.covers_iff]
    omega

end Sweep

namespace ProgramDraft

variable {clockName : String} {settings : Settings} {schedule : Schedule}

/-- The draft after the wait at the start of a segment, if there is one. -/
def enter (settings : Settings) (schedule : Schedule) (draft : ProgramDraft)
    (segment : Segment) : ProgramDraft :=
  match schedule.waits.find? segment.start with
  | some wait => draft.pushWait settings wait
  | none => draft

/-- The draft after a segment that raises no fault. -/
def extend (settings : Settings) (schedule : Schedule) (draft : ProgramDraft)
    (segment : Segment) : ProgramDraft :=
  (schedule.blocksOf segment).foldl (pushBlock settings)
    { draft.enter settings schedule segment with
      ticks := draft.ticks + ((schedule.blocksOf segment).flatMap Block.ticks).length
      sweep := draft.sweep.advance segment.start }

@[simp] theorem ticks_foldl_pushBlock (draft : ProgramDraft) (blocks : List Block) :
    (blocks.foldl (pushBlock settings) draft).ticks = draft.ticks := by
  induction blocks generalizing draft with
  | nil => rfl
  | cons block rest ih => rw [List.foldl_cons, ih, pushBlock]

@[simp] theorem sweep_foldl_pushBlock (draft : ProgramDraft) (blocks : List Block) :
    (blocks.foldl (pushBlock settings) draft).sweep = draft.sweep := by
  induction blocks generalizing draft with
  | nil => rfl
  | cons block rest ih => rw [List.foldl_cons, ih, pushBlock]

@[simp] theorem ticks_extend (draft : ProgramDraft) (segment : Segment) :
    (draft.extend settings schedule segment).ticks =
      draft.ticks + ((schedule.blocksOf segment).flatMap Block.ticks).length := by
  simp [extend]

@[simp] theorem sweep_extend (draft : ProgramDraft) (segment : Segment) :
    (draft.extend settings schedule segment).sweep = draft.sweep.advance segment.start := by
  simp [extend]

/-- A segment has as many ticks as its blocks. -/
theorem length_blocks_ticks (segment : Segment) (period : Option Nat) (limit : Nat) :
    ((segment.blocks period limit).flatMap Block.ticks).length =
      segment.tickCount period limit := by
  rw [Segment.blocks_ticks, Segment.tickCount_eq, List.length_cons, List.length_map]

theorem enter_ticks (settings : Settings) (schedule : Schedule) (draft : ProgramDraft)
    (segment : Segment) :
    (draft.enter settings schedule segment).ticks = draft.ticks := by
  unfold enter
  split <;> rfl

theorem enter_sweep (settings : Settings) (schedule : Schedule) (draft : ProgramDraft)
    (segment : Segment) :
    (draft.enter settings schedule segment).sweep = draft.sweep := by
  unfold enter
  split <;> rfl

/-- A step of the walk, said with the ramps that are active at the start of the segment. -/
theorem pushSegment_eq {draft : ProgramDraft} {segment : Segment}
    (active : (draft.sweep.advance segment.start).active = schedule.active segment.start) :
    pushSegment clockName settings schedule draft segment =
      (Window.commonPeriod settings.timeBase segment.start (schedule.active segment.start) >>=
        fun period =>
          let limit := segment.limit (schedule.active segment.start)
          let ticks := draft.ticks + segment.tickCount period limit
          if settings.maxTicks < ticks then
            .error (.limit clockName (.tickCount settings.maxTicks
              (TimeGrid.seconds segment.start settings.timeBase)))
          else
            .ok ((segment.blocks period limit).foldl (pushBlock settings)
              { draft.enter settings schedule segment with
                ticks, sweep := draft.sweep.advance segment.start })) := by
  rw [← active, ← enter_sweep settings schedule draft segment,
    ← enter_ticks settings schedule draft segment]
  rfl

/-- A step of the walk raises no fault exactly if the ramps that are active at the start of the
segment agree and the ticks do not exceed the limit. -/
theorem pushSegment_eq_ok {draft next : ProgramDraft} {segment : Segment}
    (active : (draft.sweep.advance segment.start).active = schedule.active segment.start) :
    pushSegment clockName settings schedule draft segment = .ok next ↔
      Window.Agree (schedule.active segment.start) ∧
        (draft.extend settings schedule segment).ticks ≤ settings.maxTicks ∧
        next = draft.extend settings schedule segment := by
  have extended : draft.extend settings schedule segment =
      (segment.blocks (schedule.period segment.start)
          (segment.limit (schedule.active segment.start))).foldl (pushBlock settings)
        { draft.enter settings schedule segment with
          ticks := draft.ticks + segment.tickCount (schedule.period segment.start)
            (segment.limit (schedule.active segment.start))
          sweep := draft.sweep.advance segment.start } := by
    rw [extend, Schedule.blocksOf, length_blocks_ticks]
  have counted : (draft.extend settings schedule segment).ticks =
      draft.ticks + segment.tickCount (schedule.period segment.start)
        (segment.limit (schedule.active segment.start)) := by
    rw [extended, ticks_foldl_pushBlock]
  rw [pushSegment_eq active, Checks.bind_eq_ok]
  simp only [Window.commonPeriod_eq_ok]
  constructor
  · intro stepped
    obtain ⟨_, ⟨agree, rfl⟩, made⟩ := stepped
    refine ⟨agree, ?_⟩
    split at made
    · exact absurd made (by simp)
    · rename_i fits
      rw [counted, extended]
      exact ⟨Nat.le_of_not_lt fits, (Except.ok.inj made).symm⟩
  · intro allowed
    obtain ⟨agree, fits, rfl⟩ := allowed
    refine ⟨_, ⟨agree, rfl⟩, ?_⟩
    rw [counted] at fits
    rw [extended]
    exact if_neg (Nat.not_lt.2 fits)

theorem ticks_foldl_extend (draft : ProgramDraft) (segments : List Segment) :
    (segments.foldl (extend settings schedule) draft).ticks = draft.ticks +
      (segments.flatMap fun segment =>
        (schedule.blocksOf segment).flatMap Block.ticks).length := by
  induction segments generalizing draft with
  | nil => simp
  | cons segment rest ih =>
      rw [List.foldl_cons, ih, ticks_extend, List.flatMap_cons, List.length_append, Nat.add_assoc]

/-- The walk raises no fault exactly if ramps agree in every segment and the ticks do not exceed the
limit at its end.  The induction is on the segments; the ramps swept up so far and the limit on the
ticks so far carry it. -/
theorem foldlM_pushSegment_eq_ok
    (sorted : schedule.windows.Pairwise fun first second => first.start ≤ second.start)
    (nonempty : ∀ window ∈ schedule.windows, window.start < window.stop)
    {draft final : ProgramDraft} {start stop : Nat} {segments : List Segment}
    (swept : Sweep.Swept schedule.windows start draft.sweep)
    (follow : Segment.Follow start segments stop)
    (clear : ∀ segment ∈ segments, ∀ window ∈ schedule.windows,
      window.start ≤ segment.start ∨ segment.next ≤ window.start)
    (fits : draft.ticks ≤ settings.maxTicks) :
    segments.foldlM (pushSegment clockName settings schedule) draft = .ok final ↔
      (∀ segment ∈ segments, Window.Agree (schedule.active segment.start)) ∧
        final.ticks ≤ settings.maxTicks ∧
        final = segments.foldl (extend settings schedule) draft := by
  induction segments generalizing draft start with
  | nil =>
      rw [List.foldlM_nil]
      constructor
      · intro ended
        cases ended
        exact ⟨fun _ member => absurd member List.not_mem_nil, fits, rfl⟩
      · intro ended
        obtain ⟨-, -, rfl⟩ := ended
        rfl
  | cons segment rest ih =>
      obtain ⟨rfl, ahead, tail⟩ := follow
      have active := swept.advance_active sorted nonempty
      have after : Sweep.Swept schedule.windows segment.next
          (draft.extend settings schedule segment).sweep := by
        rw [sweep_extend]
        exact swept.next sorted nonempty ahead (clear segment (List.mem_cons_self ..))
      have clearRest := fun other inRest => clear other (List.mem_cons_of_mem _ inRest)
      rw [List.foldlM_cons, Checks.bind_eq_ok, List.forall_mem_cons, List.foldl_cons]
      simp only [pushSegment_eq_ok active]
      constructor
      · intro walk
        obtain ⟨_, ⟨agree, stepFits, rfl⟩, walked⟩ := walk
        obtain ⟨agreeRest, result⟩ := (ih after tail clearRest stepFits).1 walked
        exact ⟨⟨agree, agreeRest⟩, result⟩
      · intro allowed
        obtain ⟨⟨agree, agreeRest⟩, finalFits, rfl⟩ := allowed
        have stepFits : (draft.extend settings schedule segment).ticks ≤ settings.maxTicks := by
          rw [ticks_foldl_extend] at finalFits
          omega
        exact ⟨_, ⟨agree, stepFits, rfl⟩,
          (ih after tail clearRest stepFits).2 ⟨agreeRest, finalFits, rfl⟩⟩

end ProgramDraft

namespace Schedule

/-- The draft of a schedule that raises no fault. -/
def draft (schedule : Schedule) (settings : Settings) : ProgramDraft :=
  schedule.segments.foldl (ProgramDraft.extend settings schedule)
    { sweep := { pending := schedule.windows } }

/-- The program of a schedule that raises no fault. -/
def assembled (schedule : Schedule) (settings : Settings) : Program :=
  ⟨settings.timeBase, TimeGrid.seconds schedule.stop settings.timeBase,
    (schedule.draft settings).entries.reverse⟩

theorem draft_ticks (schedule : Schedule) (settings : Settings) :
    (schedule.draft settings).ticks = schedule.gridTicks.length := by
  rw [draft, ProgramDraft.ticks_foldl_extend, Nat.zero_add]
  rfl

/-- The walk over all segments of a schedule raises no fault exactly if ramps that are active
together agree and the ticks do not exceed the limit. -/
theorem Serves.walk_eq_ok {schedule : Schedule} {demand : Demand} {clockName : String}
    {settings : Settings} {final : ProgramDraft} (serves : schedule.Serves demand)
    (bounded : demand.Bounded schedule.stop) :
    schedule.walk clockName settings = .ok final ↔
      demand.Compatible ∧ demand.tickCount schedule.stop ≤ settings.maxTicks ∧
        final = schedule.draft settings := by
  have nonempty : ∀ window ∈ schedule.windows, window.start < window.stop :=
    fun window member => bounded.nonempty window ((serves.windows window).1 member)
  rw [walk, ProgramDraft.foldlM_pushSegment_eq_ok serves.sorted nonempty
    (Sweep.swept_start schedule.windows) (serves.follow bounded) (serves.starts_apart bounded)
    (Nat.zero_le _), serves.agree_iff bounded]
  refine and_congr_right fun compatible => and_congr_left fun made => ?_
  have agree := (serves.agree_iff bounded).2 compatible
  rw [made, ← serves.gridTicks_length bounded agree, ← draft_ticks schedule settings]
  rfl

end Schedule

/-- A clock has a program exactly if its outputs and waits keep to the stop, the ramps are
compatible and the ticks that are asked for do not exceed the limit; then it is the one of the
schedule. -/
theorem Pseudoclock.program_eq_ok {clock : Pseudoclock} {outputs : List Output} {stop : Nat}
    {settings : Settings} {program : Program} :
    clock.program outputs stop settings = .ok program ↔
      Schedule.Timely clock outputs stop ∧ (Demand.of clock outputs).Compatible ∧
        (Demand.of clock outputs).tickCount stop ≤ settings.maxTicks ∧
        program = (Schedule.gather clock outputs stop).assembled settings := by
  have serves := Schedule.gather_serves clock outputs stop
  rw [Pseudoclock.program, Checks.bind_eq_ok]
  simp only [Schedule.of_eq_ok, Schedule.program, Checks.bind_eq_ok]
  constructor
  · intro compiled
    obtain ⟨_, ⟨timely, rfl⟩, _, walked, made⟩ := compiled
    obtain ⟨compatible, fits, rfl⟩ := (serves.walk_eq_ok timely.bounded).1 walked
    exact ⟨timely, compatible, fits, (Except.ok.inj made).symm⟩
  · intro admitted
    obtain ⟨timely, compatible, fits, rfl⟩ := admitted
    exact ⟨_, ⟨timely, rfl⟩, _,
      (serves.walk_eq_ok timely.bounded).2 ⟨compatible, fits, rfl⟩, rfl⟩

end Metronome
