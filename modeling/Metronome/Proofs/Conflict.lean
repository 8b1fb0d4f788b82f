/-
Module: Metronome.Proofs.Conflict
Purpose: A reported conflict is one of the demand, and no earlier one could have been reported.
Trusted boundary: none
Main exports:
  Window.Clash, Pseudoclock.Conflicts, Schedule.Serves.walk_conflict,
  Pseudoclock.program_conflict
-/
import Metronome.Proofs.Draft
import Metronome.Proofs.Failures

/-!
A program is refused with a conflict in two places: a wait that a ramp spans is found while the
schedule is made, and two active ramps with different sample periods on the walk over the segments.
`Pseudoclock.Conflicts` says of the outputs and waits alone what such a report stands for.  That a
report of the walk is the earliest possible needs nothing about the order of the active ramps: the
later of two starts is a boundary, and every boundary before the reported one has been passed.
-/

namespace Metronome

/-- Two ramps are active at one position and need different sample periods. -/
structure Window.Clash (first second : Window) (position : Nat) : Prop where
  firstCovers : first.covers position = true
  secondCovers : second.covers position = true
  differ : first.period ≠ second.period

/-- Ramps that clash anywhere clash at the later of their starts, and not before. -/
theorem Window.Clash.at_later_start {first second : Window} {position : Nat}
    (clash : first.Clash second position) :
    first.Clash second (max first.start second.start) ∧
      max first.start second.start ≤ position := by
  obtain ⟨firstCovers, secondCovers, differ⟩ := clash
  rw [Window.covers_iff] at firstCovers secondCovers
  refine ⟨⟨?_, ?_, differ⟩, by omega⟩
  · rw [Window.covers_iff]
    omega
  · rw [Window.covers_iff]
    omega

/-- What the report of a conflict stands for: the first wait that a ramp spans, or the first
position at which two ramps clash. -/
inductive Pseudoclock.Conflicts (clock : Pseudoclock) (outputs : List Output) (timeBase : Float) :
    String → String → Float → ConflictCause → Prop where
  | wait {window : Window} {wait : Wait} (ramp : window ∈ (Demand.of clock outputs).windows)
      (halts : wait ∈ clock.waits.items) (spanned : window.spans wait.position = true)
      (earliest : ∀ other ∈ (Demand.of clock outputs).windows, ∀ earlier ∈ clock.waits.items,
        other.spans earlier.position = true → wait.position ≤ earlier.position) :
      Conflicts clock outputs timeBase window.output (clock.waitName wait.label)
        (TimeGrid.seconds wait.position timeBase) .rampSpansWait
  | ramps {first second : Window} (firstRamp : first ∈ (Demand.of clock outputs).windows)
      (secondRamp : second ∈ (Demand.of clock outputs).windows)
      (clash : first.Clash second (max first.start second.start))
      (earliest : ∀ one ∈ (Demand.of clock outputs).windows,
        ∀ other ∈ (Demand.of clock outputs).windows, ∀ position,
          one.Clash other position → max first.start second.start ≤ position) :
      Conflicts clock outputs timeBase first.output second.output
        (TimeGrid.seconds (max first.start second.start) timeBase)
        (.samplePeriods (TimeGrid.seconds first.period timeBase)
          (TimeGrid.seconds second.period timeBase))

/-! ### Waits -/

/-- The check of a wait reports the first ramp that spans it. -/
theorem Schedule.checkWait_conflict {clock : Pseudoclock} {windows : List Window}
    {timeBase : Float} {stop : Nat} {wait : Wait} {first second : String} {time : Float}
    {cause : ConflictCause}
    (failed : checkWait clock windows timeBase stop wait =
      .error (.conflict first second time cause)) :
    ∃ window ∈ windows, window.spans wait.position = true ∧ first = window.output ∧
      second = clock.waitName wait.label ∧ time = TimeGrid.seconds wait.position timeBase ∧
      cause = .rampSpansWait := by
  unfold checkWait at failed
  split at failed
  · cases failed
  · split at failed
    · rename_i window found
      cases failed
      have spanned : window.spans wait.position = true := by simpa using List.find?_some found
      exact ⟨window, List.mem_of_find?_eq_some found, spanned, rfl, rfl, rfl, rfl⟩
    · cases failed

/-- A conflict found while a schedule is made is the first wait that a ramp spans. -/
theorem Schedule.of_conflict {clock : Pseudoclock} {outputs : List Output} {timeBase : Float}
    {stop : Nat} {first second : String} {time : Float} {cause : ConflictCause}
    (failed : Schedule.of clock outputs timeBase stop =
      .error (.conflict first second time cause)) :
    clock.Conflicts outputs timeBase first second time cause := by
  unfold Schedule.of at failed
  split at failed
  · cases failed
  rcases Checks.bind_eq_error.1 failed with refused | ⟨_, -, rest⟩
  · -- Outputs fail with faults of their timelines only.
    have timelines : Checks.FailsWith (fun fault => ∃ output time cause,
        fault = Fault.timeline output time cause)
        (outputs.forM fun output => output.checkTimeline timeBase stop) :=
      Checks.failsWith_forM fun output _ => Checks.failsWith_forM fun placement _ =>
        output.checkPlacement_failsWith fun name at' why => ⟨name, at', why, rfl⟩
    obtain ⟨_, _, _, isTimeline⟩ := timelines _ refused
    cases isTimeline
  · rcases Checks.bind_eq_error.1 rest with refused | ⟨_, -, made⟩
    · obtain ⟨before, wait, after, split, passed, waitFailed⟩ := Checks.forM_eq_error.1 refused
      obtain ⟨window, ramp, spanned, rfl, rfl, rfl, rfl⟩ := checkWait_conflict waitFailed
      have increasing := clock.waits.increasing
      rw [split] at increasing
      refine .wait ramp (by simp [split]) spanned fun other otherRamp earlier halts spans => ?_
      rw [split, List.mem_append, List.mem_cons] at halts
      rcases halts with isBefore | rfl | isAfter
      · have free := (checkWait_eq_ok.1 (passed earlier isBefore)).2 other otherRamp
        exact absurd (by simpa [Window.spans] using spans) free
      · exact Nat.le_refl _
      · have later := List.pairwise_append.1 increasing
        exact Nat.le_of_lt ((List.pairwise_cons.1 later.2.1).1 earlier isAfter)
    · cases made

/-! ### Ramps -/

/-- Ramps without a common period are reported by the names of two that differ. -/
theorem Window.commonPeriod_eq_error {timeBase : Float} {position : Nat} {windows : List Window}
    {fault : Fault} (failed : commonPeriod timeBase position windows = .error fault) :
    ∃ first ∈ windows, ∃ second ∈ windows, first.period ≠ second.period ∧
      fault = .conflict first.output second.output (TimeGrid.seconds position timeBase)
        (.samplePeriods (TimeGrid.seconds first.period timeBase)
          (TimeGrid.seconds second.period timeBase)) := by
  cases windows with
  | nil => cases failed
  | cons head rest =>
      rw [commonPeriod] at failed
      split at failed
      · cases failed
      · rename_i other found
        cases failed
        have differs : other.period ≠ head.period := by simpa using List.find?_some found
        exact ⟨head, List.mem_cons_self, other,
          List.mem_cons_of_mem _ (List.mem_of_find?_eq_some found), differs.symm, rfl⟩

namespace ProgramDraft

variable {clockName : String} {settings : Settings} {schedule : Schedule}

/-- A step of the walk reports a conflict only for the ramps that are active at the start of the
segment. -/
theorem pushSegment_conflict {draft : ProgramDraft} {segment : Segment} {first second : String}
    {time : Float} {cause : ConflictCause}
    (active : (draft.sweep.advance segment.start).active = schedule.active segment.start)
    (failed : pushSegment clockName settings schedule draft segment =
      .error (.conflict first second time cause)) :
    Window.commonPeriod settings.timeBase segment.start (schedule.active segment.start) =
      .error (.conflict first second time cause) := by
  rw [pushSegment_eq active] at failed
  rcases Checks.bind_eq_error.1 failed with refused | ⟨period, -, rest⟩
  · exact refused
  · dsimp only at rest
    split at rest
    · cases rest
    · cases rest

/-- A walk that ends in a conflict ends at the first segment whose ramps do not agree.  The
induction is on the segments, and the ramps swept up so far carry it. -/
theorem foldlM_pushSegment_conflict
    (sorted : schedule.windows.Pairwise fun first second => first.start ≤ second.start)
    (nonempty : ∀ window ∈ schedule.windows, window.start < window.stop)
    {draft : ProgramDraft} {start stop : Nat} {segments : List Segment}
    (swept : Sweep.Swept schedule.windows start draft.sweep)
    (follow : Segment.Follow start segments stop)
    (clear : ∀ segment ∈ segments, ∀ window ∈ schedule.windows,
      window.start ≤ segment.start ∨ segment.next ≤ window.start)
    {first second : String} {time : Float} {cause : ConflictCause}
    (failed : segments.foldlM (pushSegment clockName settings schedule) draft =
      .error (.conflict first second time cause)) :
    ∃ segment ∈ segments,
      (∀ earlier ∈ segments, earlier.start < segment.start →
        Window.Agree (schedule.active earlier.start)) ∧
      Window.commonPeriod settings.timeBase segment.start (schedule.active segment.start) =
        .error (.conflict first second time cause) := by
  induction segments generalizing draft start with
  | nil => cases failed
  | cons segment rest ih =>
      obtain ⟨rfl, ahead, tail⟩ := follow
      have active := swept.advance_active sorted nonempty
      rw [List.foldlM_cons] at failed
      rcases Checks.bind_eq_error.1 failed with here | ⟨_, stepped, later⟩
      · refine ⟨segment, List.mem_cons_self, fun earlier member isEarlier => ?_,
          pushSegment_conflict active here⟩
        rcases List.mem_cons.1 member with rfl | inRest
        · exact absurd isEarlier (Nat.lt_irrefl _)
        · have := (tail.bounds inRest).1
          omega
      · obtain ⟨agree, -, rfl⟩ := (pushSegment_eq_ok active).1 stepped
        have after : Sweep.Swept schedule.windows segment.next
            (draft.extend settings schedule segment).sweep := by
          rw [sweep_extend]
          exact swept.next sorted nonempty ahead (clear segment List.mem_cons_self)
        obtain ⟨found, member, passed, conflict⟩ := ih after tail
          (fun other inRest => clear other (List.mem_cons_of_mem _ inRest)) later
        refine ⟨found, List.mem_cons_of_mem _ member, ?_, conflict⟩
        exact List.forall_mem_cons.2 ⟨fun _ => agree, passed⟩

end ProgramDraft

/-- A conflict found on the walk is the first clash of two ramps. -/
theorem Schedule.Serves.walk_conflict {clock : Pseudoclock} {outputs : List Output}
    {schedule : Schedule} {clockName : String} {settings : Settings} {first second : String}
    {time : Float} {cause : ConflictCause}
    (serves : schedule.Serves (Demand.of clock outputs))
    (bounded : (Demand.of clock outputs).Bounded schedule.stop)
    (failed : schedule.walk clockName settings = .error (.conflict first second time cause)) :
    clock.Conflicts outputs settings.timeBase first second time cause := by
  have nonempty : ∀ window ∈ schedule.windows, window.start < window.stop :=
    fun window member => bounded.nonempty window ((serves.windows window).1 member)
  obtain ⟨segment, member, passed, conflict⟩ := ProgramDraft.foldlM_pushSegment_conflict
    serves.sorted nonempty (Sweep.swept_start schedule.windows) (serves.follow bounded)
    (serves.starts_apart bounded) failed
  -- No clash starts at a boundary before the reported one.
  have notBefore : ∀ one ∈ (Demand.of clock outputs).windows,
      ∀ other ∈ (Demand.of clock outputs).windows, ∀ position,
        one.Clash other position → segment.start ≤ max one.start other.start := by
    intro one oneIn other otherIn position clash
    obtain ⟨firstCovers, secondCovers, differ⟩ := clash.at_later_start.1
    obtain ⟨earlier, earlierIn, starts⟩ := serves.exists_start
      (bounded.later_start_mem oneIn otherIn)
    rw [← starts] at firstCovers secondCovers ⊢
    by_contra notLe
    exact differ (passed earlier earlierIn (Nat.lt_of_not_le notLe) one
      (serves.mem_active_start.2 ⟨oneIn, Window.covers_iff.1 firstCovers⟩) other
      (serves.mem_active_start.2 ⟨otherIn, Window.covers_iff.1 secondCovers⟩))
  obtain ⟨one, oneActive, other, otherActive, differ, reported⟩ :=
    Window.commonPeriod_eq_error conflict
  obtain ⟨oneIn, oneCovers⟩ := serves.mem_active_start.1 oneActive
  obtain ⟨otherIn, otherCovers⟩ := serves.mem_active_start.1 otherActive
  have clash : one.Clash other segment.start :=
    ⟨Window.covers_iff.2 oneCovers, Window.covers_iff.2 otherCovers, differ⟩
  have here : segment.start = max one.start other.start :=
    Nat.le_antisymm (notBefore one oneIn other otherIn _ clash) clash.at_later_start.2
  rw [here] at reported clash
  cases reported
  refine .ramps oneIn otherIn clash fun early earlyIn late lateIn position collides => ?_
  rw [← here]
  exact Nat.le_trans (notBefore early earlyIn late lateIn position collides)
    collides.at_later_start.2

/-- The report of a conflict is true and names the first one: a wait inside a ramp with no ramp
around an earlier wait, or two ramps with different sample periods at the later of their starts with
no two such ramps active at an earlier position. -/
theorem Pseudoclock.program_conflict {clock : Pseudoclock} {outputs : List Output} {stop : Nat}
    {settings : Settings} {first second : String} {time : Float} {cause : ConflictCause}
    (failed : clock.program outputs stop settings =
      .error (.conflict first second time cause)) :
    clock.Conflicts outputs settings.timeBase first second time cause := by
  rcases Checks.bind_eq_error.1 failed with refused | ⟨_, gathered, rest⟩
  · exact Schedule.of_conflict refused
  · obtain ⟨timely, rfl⟩ := Schedule.of_eq_ok.1 gathered
    rcases Checks.bind_eq_error.1 rest with walked | ⟨_, -, made⟩
    · exact (Schedule.gather_serves clock outputs stop).walk_conflict timely.bounded walked
    · cases made

/-- A ramp of four samples. -/
def Placement.fourSamples (start : Nat) : Placement :=
  ⟨start, some ⟨start + 20, 5⟩, .linear 0 1, rfl, Nat.lt_add_of_pos_right (Nat.succ_pos 19),
    Nat.succ_pos 4⟩

/-- Two staggered ramps, and one with another sample period that starts where the first ends. -/
def Output.clashing : List Output :=
  staggered ++ [⟨"ao/ao2", .analog, 0, .fast, .ofList [.fourSamples 20]⟩]

/-- The ramp that has ended is not named, and the one that goes on is. -/
theorem Pseudoclock.bare_conflict :
    bare.program Output.clashing 50 {} = .error (.conflict "ao/ao1" "ao/ao2"
      (TimeGrid.seconds 20 1000000000) (.samplePeriods (TimeGrid.seconds 10 1000000000)
        (TimeGrid.seconds 5 1000000000))) ∧
    bare.Conflicts Output.clashing 1000000000 "ao/ao1" "ao/ao2" (TimeGrid.seconds 20 1000000000)
      (.samplePeriods (TimeGrid.seconds 10 1000000000) (TimeGrid.seconds 5 1000000000)) :=
  ⟨rfl, program_conflict (rfl : bare.program Output.clashing 50 {} = _)⟩

end Metronome
