/-
Module: Metronome.Proofs.Schedule
Purpose: Which outputs and waits get a schedule, and what every schedule can be relied on for.
Trusted boundary: none
Main exports:
  Schedule.Timely, Schedule.gather, Schedule.of_eq_ok, Demand.Bounded, Schedule.Serves,
  Schedule.gather_serves
-/
import Metronome.Proofs.Checks
import Metronome.Proofs.Demand

/-!
A schedule is made after every output and every wait has been checked by itself.  The checks are
described by `Schedule.Timely`.  What they leave to rely on is said of the demand alone, in
`Demand.Bounded`, and `Schedule.Serves` carries it over to the ordered lists of the schedule.
-/

namespace Metronome

/-- The domain of a ramp is nonempty and its sample period positive. -/
theorem Placement.fits_of_ramp {placement : Placement} {span : RampSpan}
    (ramp : placement.ramp = some span) : placement.start < span.stop ∧ 0 < span.period := by
  have fits := placement.fits
  rw [ramp] at fits
  exact fits.2

namespace Window

theorem mem_place {window other : Window} {windows : List Window} :
    other ∈ place window windows ↔ other = window ∨ other ∈ windows := by
  induction windows with
  | nil => simp [place]
  | cons first rest ih =>
      rw [place]
      split
      · simp
      · simp only [List.mem_cons, ih]
        exact or_left_comm

theorem mem_foldr_place {other : Window} {windows : List Window} :
    other ∈ windows.foldr place [] ↔ other ∈ windows := by
  induction windows with
  | nil => simp
  | cons first rest ih => rw [List.foldr_cons, mem_place, ih, List.mem_cons]

theorem place_sorted {window : Window} {windows : List Window}
    (sorted : windows.Pairwise fun first second => first.start ≤ second.start) :
    (place window windows).Pairwise fun first second => first.start ≤ second.start := by
  induction windows with
  | nil => simp [place]
  | cons first rest ih =>
      obtain ⟨firstLe, restSorted⟩ := List.pairwise_cons.1 sorted
      rw [place]
      split
      · rename_i le
        refine List.pairwise_cons.2 ⟨fun other member => ?_, sorted⟩
        rcases List.mem_cons.1 member with rfl | inRest
        · exact le
        · exact Nat.le_trans le (firstLe other inRest)
      · rename_i notLe
        refine List.pairwise_cons.2 ⟨fun other member => ?_, ih restSorted⟩
        rcases mem_place.1 member with rfl | inRest
        · exact Nat.le_of_not_le notLe
        · exact firstLe other inRest

/-- Ramps that are placed one by one stand in the order of their starts. -/
theorem foldr_place_sorted (windows : List Window) :
    (windows.foldr place []).Pairwise fun first second => first.start ≤ second.start := by
  induction windows with
  | nil => exact List.Pairwise.nil
  | cons first rest ih => exact place_sorted ih

end Window

namespace Output

/-- A placement passes its check if it starts in time and, as a ramp, stands on the fast line, ends
in time and lasts a whole number of samples. -/
theorem checkPlacement_eq_ok {output : Output} {timeBase : Float} {stop : Nat}
    {placement : Placement} :
    output.checkPlacement timeBase stop placement = .ok () ↔
      placement.start < stop ∧ ∀ span, placement.ramp = some span →
        output.line = .fast ∧ span.stop ≤ stop ∧ span.period ∣ span.stop - placement.start := by
  unfold checkPlacement
  by_cases late : stop ≤ placement.start
  · simp [late, Nat.not_lt.2 late]
  · have inTime : placement.start < stop := Nat.lt_of_not_le late
    cases placement.ramp with
    | none => simp [late, inTime]
    | some span =>
        simp only [late, if_false, Option.some.injEq, forall_eq', inTime, true_and]
        split
        · rename_i slow
          simp [slow]
        · rename_i notSlow
          have fast : output.line = .fast := by
            cases line : output.line with
            | fast => rfl
            | slow => exact absurd line notSlow
          split
          · rename_i past
            simp [Nat.not_le.2 past]
          · rename_i inside
            rw [Nat.dvd_iff_mod_eq_zero]
            split
            · rename_i partialSample
              simp [partialSample]
            · rename_i whole
              simp only [true_iff]
              exact ⟨fast, Nat.le_of_not_lt inside, by omega⟩

end Output

namespace Schedule

/-- A wait passes its check if it lies before the stop and strictly inside no ramp. -/
theorem checkWait_eq_ok {clock : Pseudoclock} {windows : List Window} {timeBase : Float}
    {stop : Nat} {wait : Wait} :
    checkWait clock windows timeBase stop wait = .ok () ↔
      wait.position < stop ∧
        ∀ window ∈ windows, ¬ (window.start < wait.position ∧ wait.position < window.stop) := by
  unfold checkWait
  by_cases late : stop ≤ wait.position
  · simp [late, Nat.not_lt.2 late]
  · simp only [late, if_false, Nat.lt_of_not_le late, true_and]
    cases found : windows.find? fun window => window.spans wait.position with
    | none =>
        simp only [true_iff]
        intro window member spans
        exact List.find?_eq_none.1 found window member (by simpa [Window.spans] using spans)
    | some window =>
        simp only [reduceCtorEq, false_iff]
        intro free
        refine free window (List.mem_of_find?_eq_some found) ?_
        simpa [Window.spans] using List.find?_some found

/-- Every output and every wait keeps to a stop position, each taken by itself. -/
structure Timely (clock : Pseudoclock) (outputs : List Output) (stop : Nat) : Prop where
  positive : 0 < stop
  starts : ∀ output ∈ outputs, ∀ placement ∈ output.timeline.items, placement.start < stop
  ramps : ∀ output ∈ outputs, ∀ placement ∈ output.timeline.items, ∀ span,
    placement.ramp = some span →
      output.line = .fast ∧ span.stop ≤ stop ∧ span.period ∣ span.stop - placement.start
  waits : ∀ wait ∈ clock.waits.items, wait.position < stop ∧
    ∀ window ∈ (Demand.of clock outputs).windows,
      ¬ (window.start < wait.position ∧ wait.position < window.stop)

/-- The schedule of outputs and waits that need no check. -/
def gather (clock : Pseudoclock) (outputs : List Output) (stop : Nat) : Schedule where
  stop := stop
  windows := (outputs.flatMap Output.windows).foldr Window.place []
  waits := clock.waits
  boundaries := .ofList (Demand.of clock outputs).boundaries

/-- Outputs and waits get a schedule exactly if they keep to the stop position. -/
theorem of_eq_ok {clock : Pseudoclock} {outputs : List Output} {timeBase : Float} {stop : Nat}
    {schedule : Schedule} :
    Schedule.of clock outputs timeBase stop = .ok schedule ↔
      Timely clock outputs stop ∧ schedule = gather clock outputs stop := by
  have outputsPass : (outputs.forM fun output => output.checkTimeline timeBase stop) = .ok () ↔
      (∀ output ∈ outputs, ∀ placement ∈ output.timeline.items, placement.start < stop) ∧
      ∀ output ∈ outputs, ∀ placement ∈ output.timeline.items, ∀ span,
        placement.ramp = some span →
          output.line = .fast ∧ span.stop ≤ stop ∧
            span.period ∣ span.stop - placement.start := by
    simp only [Checks.forM_eq_ok, Output.checkTimeline, Output.checkPlacement_eq_ok]
    constructor
    · intro passes
      exact ⟨fun output member placement placed => (passes output member placement placed).1,
        fun output member placement placed => (passes output member placement placed).2⟩
    · intro both output member placement placed
      obtain ⟨starts, ramps⟩ := both
      exact ⟨starts output member placement placed, ramps output member placement placed⟩
  have waitsPass : (clock.waits.items.forM
        (checkWait clock (outputs.flatMap Output.windows) timeBase stop)) = .ok () ↔
      ∀ wait ∈ clock.waits.items, wait.position < stop ∧
        ∀ window ∈ (Demand.of clock outputs).windows,
          ¬ (window.start < wait.position ∧ wait.position < window.stop) := by
    simp only [Checks.forM_eq_ok, checkWait_eq_ok]
    rfl
  unfold Schedule.of
  by_cases empty : stop = 0
  · subst empty
    constructor
    · intro made
      simp [bind, Except.bind, throw, throwThe, MonadExceptOf.throw] at made
    · intro demanded
      obtain ⟨timely, -⟩ := demanded
      exact absurd timely.positive (Nat.lt_irrefl 0)
  · simp only [empty, if_false, Checks.bind_eq_ok, outputsPass, waitsPass]
    constructor
    · intro checked
      obtain ⟨_, ⟨starts, ramps⟩, _, waits, made⟩ := checked
      exact ⟨⟨Nat.pos_of_ne_zero empty, starts, ramps, waits⟩, (Except.ok.inj made).symm⟩
    · intro demanded
      obtain ⟨timely, rfl⟩ := demanded
      exact ⟨(), ⟨timely.starts, timely.ramps⟩, (), timely.waits, rfl⟩

end Schedule

/-- A demand that can be met up to a stop: it begins with the start, the ramps start at boundaries,
and nothing reaches past the stop. -/
structure Demand.Bounded (demand : Demand) (stop : Nat) : Prop where
  zero : 0 ∈ demand.boundaries
  before : ∀ boundary ∈ demand.boundaries, boundary < stop
  starts : ∀ window ∈ demand.windows, window.start ∈ demand.boundaries
  nonempty : ∀ window ∈ demand.windows, window.start < window.stop
  inside : ∀ window ∈ demand.windows, window.stop ≤ stop
  sampled : ∀ window ∈ demand.windows, 0 < window.period
  whole : ∀ window ∈ demand.windows, window.period ∣ window.stop - window.start

/-- A ramp that is not over is active from the last boundary on. -/
theorem Demand.Bounded.mem_active {demand : Demand} {stop position : Nat}
    (bounded : demand.Bounded stop) {window : Window} (member : window ∈ demand.windows)
    (started : window.start ≤ position) (goesOn : demand.latest position < window.stop) :
    window ∈ demand.active position :=
  Demand.mem_active.2 ⟨member, (Demand.latest_spec bounded.zero position).2.2 _
    (bounded.starts window member) started, goesOn⟩

/-- The later start of two ramps is a boundary. -/
theorem Demand.Bounded.later_start_mem {demand : Demand} {stop : Nat}
    (bounded : demand.Bounded stop) {first second : Window} (firstIn : first ∈ demand.windows)
    (secondIn : second ∈ demand.windows) :
    max first.start second.start ∈ demand.boundaries := by
  rcases Nat.le_total first.start second.start with le | le
  · rw [Nat.max_eq_right le]
    exact bounded.starts second secondIn
  · rw [Nat.max_eq_left le]
    exact bounded.starts first firstIn

/-- While a ramp goes on, a tick is asked for less than its sample period before every position. -/
theorem Demand.Bounded.exists_ticksAt {demand : Demand} {stop position : Nat}
    (bounded : demand.Bounded stop) {window : Window} (member : window ∈ demand.windows)
    (started : window.start ≤ position) (goesOn : position < window.stop) :
    ∃ sample ≤ position, position - sample < window.period ∧ demand.TicksAt sample := by
  obtain ⟨isBoundary, before, greatest⟩ := Demand.latest_spec bounded.zero position
  have rest := Nat.mod_lt (position - demand.latest position) (bounded.sampled window member)
  have restLe := Nat.mod_le (position - demand.latest position) window.period
  have multiple : window.period ∣ position - demand.latest position -
      (position - demand.latest position) % window.period := Nat.dvd_sub_mod _
  generalize (position - demand.latest position) % window.period = late at rest restLe multiple
  have latest : demand.latest (position - late) = demand.latest position :=
    Demand.latest_eq isBoundary (by omega) fun other present reached =>
      greatest other present (by omega)
  have active : window ∈ demand.active (position - late) :=
    Demand.mem_active.2 ⟨member, by
      rw [latest]
      exact greatest _ (bounded.starts window member) started, by omega⟩
  have distance : position - late - demand.latest position =
      position - demand.latest position - late := by omega
  refine ⟨position - late, Nat.sub_le .., by omega, Or.inr (Or.inl ⟨⟨window, active, ?_⟩, window,
    active, by omega⟩)⟩
  rw [latest, distance]
  exact multiple

/-- A demand that keeps to a stop position is bounded by it. -/
theorem Schedule.Timely.bounded {clock : Pseudoclock} {outputs : List Output} {stop : Nat}
    (timely : Schedule.Timely clock outputs stop) : (Demand.of clock outputs).Bounded stop where
  zero := Demand.mem_boundaries_of.2 (Or.inl rfl)
  before := by
    intro boundary member
    rcases Demand.mem_boundaries_of.1 member with rfl | ⟨output, made, placement, placed, rfl⟩ |
      ⟨wait, made, rfl⟩
    · exact timely.positive
    · exact timely.starts output made placement placed
    · exact (timely.waits wait made).1
  starts := by
    intro window member
    obtain ⟨output, made, placement, placed, span, -, rfl⟩ := Demand.mem_windows_of.1 member
    exact Demand.mem_boundaries_of.2 (Or.inr (Or.inl ⟨output, made, placement, placed, rfl⟩))
  nonempty := by
    intro window member
    obtain ⟨_, -, placement, -, span, ramp, rfl⟩ := Demand.mem_windows_of.1 member
    exact (placement.fits_of_ramp ramp).1
  inside := by
    intro window member
    obtain ⟨output, made, placement, placed, span, ramp, rfl⟩ := Demand.mem_windows_of.1 member
    exact (timely.ramps output made placement placed span ramp).2.1
  sampled := by
    intro window member
    obtain ⟨_, -, placement, -, span, ramp, rfl⟩ := Demand.mem_windows_of.1 member
    exact (placement.fits_of_ramp ramp).2
  whole := by
    intro window member
    obtain ⟨output, made, placement, placed, span, ramp, rfl⟩ := Demand.mem_windows_of.1 member
    exact (timely.ramps output made placement placed span ramp).2.2

/-- A schedule holds the boundaries and the ramps of a demand, both in order. -/
structure Schedule.Serves (schedule : Schedule) (demand : Demand) : Prop where
  boundaries : ∀ position, position ∈ schedule.boundaries.items ↔ position ∈ demand.boundaries
  windows : ∀ window, window ∈ schedule.windows ↔ window ∈ demand.windows
  sorted : schedule.windows.Pairwise fun first second => first.start ≤ second.start

/-- A gathered schedule serves the demand that it was gathered from. -/
theorem Schedule.gather_serves (clock : Pseudoclock) (outputs : List Output) (stop : Nat) :
    (Schedule.gather clock outputs stop).Serves (Demand.of clock outputs) where
  boundaries := by
    intro position
    have taken : (∃ present ∈ (Schedule.gather clock outputs stop).boundaries.items,
        id present = position) ↔
        ∃ boundary ∈ (Demand.of clock outputs).boundaries, id boundary = position :=
      Ordered.position_mem_ofList
    simpa using taken
  windows := fun _ => Window.mem_foldr_place
  sorted := Window.foldr_place_sorted _

end Metronome
