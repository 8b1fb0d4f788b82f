/-
Module: Metronome.Proofs.Determination
Purpose: The program of a clock depends on what is asked for, not on which output asks for it nor in
  which order.
Trusted boundary: none
Main exports:
  Window.domain, Window.Alike, Demand.Same, Schedule.Serves.blocksOf_eq, ProgramDraft.Alike,
  Schedule.Serves.assembled_eq, Pseudoclock.SamePrograms, Pseudoclock.samePrograms_of_same,
  Pseudoclock.program_determined
-/
import Metronome.Proofs.Draft
import Metronome.Proofs.Placing

/-!
Ramps stand in the order of their starts, and those that start together in the order of the outputs,
so two orders of the outputs lead to different lists of active ramps.  Three things are read off
such a list: the sample period, for which the first ramp is as good as any since they agree; the last
of the stops; and whether the ramps agree.  None of them tells lists apart that have the same
domains, so all blocks are the same, and the program with them.
-/

namespace Metronome

/-! ### Ramps with the same domains -/

namespace Window

/-- Where a ramp takes place, whatever output it belongs to. -/
def domain (window : Window) : Nat × RampSpan :=
  (window.start, ⟨window.stop, window.period⟩)

theorem domain_eq_iff {first second : Window} :
    first.domain = second.domain ↔
      first.start = second.start ∧ first.stop = second.stop ∧ first.period = second.period := by
  simp [domain]

/-- Ramps that take place in the same domains. -/
def Alike (first second : List Window) : Prop :=
  ∀ domain, domain ∈ first.map Window.domain ↔ domain ∈ second.map Window.domain

variable {first second : List Window}

theorem Alike.symm (alike : Alike first second) : Alike second first :=
  fun domain => (alike domain).symm

/-- Each ramp has a counterpart. -/
theorem Alike.exists_mem (alike : Alike first second) {window : Window} (member : window ∈ first) :
    ∃ other ∈ second,
      other.start = window.start ∧ other.stop = window.stop ∧ other.period = window.period := by
  obtain ⟨other, otherIn, same⟩ :=
    List.mem_map.1 ((alike window.domain).1 (List.mem_map_of_mem member))
  exact ⟨other, otherIn, domain_eq_iff.1 same⟩

/-- The ramps that go on at a position are alike, too. -/
theorem Alike.covering (alike : Alike first second) (position : Nat) :
    Alike (first.filter fun window => window.covers position)
      (second.filter fun window => window.covers position) := by
  have covered : ∀ windows : List Window,
      (windows.filter fun window => window.covers position).map domain =
        (windows.map domain).filter fun domain =>
          domain.1 ≤ position && position < domain.2.stop := by
    intro windows
    rw [List.filter_map]
    rfl
  intro domain
  rw [covered, covered, List.mem_filter, List.mem_filter, alike domain]

theorem Alike.agree (alike : Alike first second) (agree : Agree first) : Agree second := by
  intro one oneIn other otherIn
  obtain ⟨oneBefore, oneBeforeIn, -, -, onePeriod⟩ := alike.symm.exists_mem oneIn
  obtain ⟨otherBefore, otherBeforeIn, -, -, otherPeriod⟩ := alike.symm.exists_mem otherIn
  rw [← onePeriod, ← otherPeriod]
  exact agree oneBefore oneBeforeIn otherBefore otherBeforeIn

/-- The first of ramps that agree stands for all of them. -/
theorem Alike.head_period (alike : Alike first second) (agree : Agree first) :
    first.head?.map period = second.head?.map period := by
  cases first with
  | nil =>
      cases second with
      | nil => rfl
      | cons lead rest =>
          obtain ⟨_, member, -⟩ := alike.symm.exists_mem (List.mem_cons_self ..)
          exact absurd member List.not_mem_nil
  | cons head rest =>
      cases second with
      | nil =>
          obtain ⟨_, member, -⟩ := alike.exists_mem (List.mem_cons_self ..)
          exact absurd member List.not_mem_nil
      | cons lead tail =>
          obtain ⟨other, otherIn, -, -, same⟩ := alike.symm.exists_mem (List.mem_cons_self ..)
          exact congrArg some ((agree head (List.mem_cons_self ..) other otherIn).trans same)

/-- The sampling of ramps stops with the last of them. -/
theorem Alike.limit_eq (alike : Alike first second) (segment : Segment) :
    segment.limit first = segment.limit second := by
  rcases segment.limit_cases first with ⟨rfl, limit⟩ | ⟨last, lastIn, greatest, limit⟩
  · rcases segment.limit_cases second with ⟨rfl, -⟩ | ⟨other, otherIn, -, -⟩
    · rfl
    · obtain ⟨_, member, -⟩ := alike.symm.exists_mem otherIn
      exact absurd member List.not_mem_nil
  · rcases segment.limit_cases second with ⟨rfl, -⟩ | ⟨other, otherIn, otherGreatest, otherLimit⟩
    · obtain ⟨_, member, -⟩ := alike.exists_mem lastIn
      exact absurd member List.not_mem_nil
    · obtain ⟨counterpart, counterpartIn, -, stop, -⟩ := alike.exists_mem lastIn
      obtain ⟨otherCounterpart, otherCounterpartIn, -, otherStop, -⟩ :=
        alike.symm.exists_mem otherIn
      have := otherGreatest counterpart counterpartIn
      have := greatest otherCounterpart otherCounterpartIn
      have stops : last.stop = other.stop := by omega
      rw [limit, otherLimit, stops]

end Window

/-- The same boundaries, and ramps in the same domains. -/
structure Demand.Same (first second : Demand) : Prop where
  boundaries : ∀ position, position ∈ first.boundaries ↔ position ∈ second.boundaries
  windows : Window.Alike first.windows second.windows

namespace Demand.Same

variable {first second : Demand}

theorem symm (same : first.Same second) : second.Same first where
  boundaries := fun position => (same.boundaries position).symm
  windows := same.windows.symm

theorem compatible (same : first.Same second) (compatible : first.Compatible) :
    second.Compatible := by
  intro one oneIn other otherIn oneEarly otherEarly
  obtain ⟨oneBefore, oneBeforeIn, oneStart, oneStop, onePeriod⟩ :=
    same.windows.symm.exists_mem oneIn
  obtain ⟨otherBefore, otherBeforeIn, otherStart, otherStop, otherPeriod⟩ :=
    same.windows.symm.exists_mem otherIn
  rw [← onePeriod, ← otherPeriod]
  exact compatible oneBefore oneBeforeIn otherBefore otherBeforeIn (by omega) (by omega)

end Demand.Same

/-! ### Schedules of the same demand -/

namespace ProgramDraft

/-- Drafts with the same entries that count time from the same wait. -/
structure Alike (first second : ProgramDraft) : Prop where
  entries : first.entries = second.entries
  epoch : first.epoch = second.epoch

variable {first second : ProgramDraft} {settings : Settings}

theorem Alike.pushWait (alike : first.Alike second) (wait : Wait) :
    (first.pushWait settings wait).Alike (second.pushWait settings wait) where
  entries := by
    simp only [ProgramDraft.pushWait, origin, alike.entries, alike.epoch]
  epoch := rfl

theorem Alike.foldl_pushBlock (alike : first.Alike second) (blocks : List Block) :
    (blocks.foldl (pushBlock settings) first).Alike
      (blocks.foldl (pushBlock settings) second) := by
  induction blocks generalizing first second with
  | nil => exact alike
  | cons block rest ih =>
      refine ih ⟨?_, alike.epoch⟩
      simp only [pushBlock, origin, alike.entries, alike.epoch]

/-- Which ramps have been swept up and how many ticks have been counted has no part in what is
appended. -/
theorem Alike.foldl_extend {schedule other : Schedule} {segments : List Segment}
    (waits : schedule.waits = other.waits)
    (blocks : ∀ segment ∈ segments, schedule.blocksOf segment = other.blocksOf segment)
    (alike : first.Alike second) :
    (segments.foldl (extend settings schedule) first).Alike
      (segments.foldl (extend settings other) second) := by
  induction segments generalizing first second with
  | nil => exact alike
  | cons segment rest ih =>
      have entered : (first.enter settings schedule segment).Alike
          (second.enter settings other segment) := by
        unfold enter
        rw [waits]
        cases other.waits.find? segment.start with
        | none => exact alike
        | some wait => exact alike.pushWait wait
      have extended : (first.extend settings schedule segment).Alike
          (second.extend settings other segment) := by
        unfold extend
        rw [blocks segment (List.mem_cons_self ..)]
        refine Alike.foldl_pushBlock ?_ _
        exact ⟨entered.entries, entered.epoch⟩
      exact ih (fun later inRest => blocks later (List.mem_cons_of_mem _ inRest)) extended

end ProgramDraft

namespace Schedule.Serves

variable {schedule other : Schedule} {demand otherDemand : Demand}

theorem alike (serves : schedule.Serves demand) (otherServes : other.Serves otherDemand)
    (same : demand.Same otherDemand) : Window.Alike schedule.windows other.windows := by
  have held : ∀ {schedule : Schedule} {demand : Demand}, schedule.Serves demand →
      ∀ domain, domain ∈ schedule.windows.map Window.domain ↔
        domain ∈ demand.windows.map Window.domain := by
    intro schedule demand serves domain
    simp only [List.mem_map, serves.windows]
  intro domain
  rw [held serves, held otherServes]
  exact same.windows domain

theorem segments_eq (serves : schedule.Serves demand) (otherServes : other.Serves otherDemand)
    (same : demand.Same otherDemand) (stops : schedule.stop = other.stop) :
    schedule.segments = other.segments := by
  have boundaries : schedule.boundaries = other.boundaries := Ordered.ext_mem fun position => by
    rw [serves.boundaries, otherServes.boundaries]
    exact same.boundaries position
  rw [segments, segments, boundaries, stops]

/-- Where ramps agree, the blocks of a segment are the same for all schedules of a demand. -/
theorem blocksOf_eq (serves : schedule.Serves demand) (otherServes : other.Serves otherDemand)
    (same : demand.Same otherDemand) {segment : Segment}
    (agree : Window.Agree (schedule.active segment.start)) :
    schedule.blocksOf segment = other.blocksOf segment := by
  have active : Window.Alike (schedule.active segment.start) (other.active segment.start) :=
    (serves.alike otherServes same).covering segment.start
  rw [blocksOf, blocksOf, period, period, active.head_period agree, active.limit_eq]

/-- The ticks and the program are the same for all schedules of a demand whose ramps are
compatible. -/
theorem assembled_eq (serves : schedule.Serves demand) (otherServes : other.Serves otherDemand)
    (same : demand.Same otherDemand) (stops : schedule.stop = other.stop)
    (waits : schedule.waits = other.waits) (bounded : demand.Bounded schedule.stop)
    (compatible : demand.Compatible) (settings : Settings) :
    schedule.gridTicks = other.gridTicks ∧
      schedule.assembled settings = other.assembled settings := by
  have agree := (serves.agree_iff bounded).2 compatible
  have segments := serves.segments_eq otherServes same stops
  have blocks : ∀ segment ∈ schedule.segments,
      schedule.blocksOf segment = other.blocksOf segment := fun segment member =>
    serves.blocksOf_eq otherServes same (agree segment member)
  constructor
  · rw [gridTicks, gridTicks, ← segments]
    exact List.flatMap_congr fun segment member => by rw [blocks segment member]
  · have drafts : (schedule.draft settings).Alike (other.draft settings) := by
      rw [draft, draft, ← segments]
      exact ProgramDraft.Alike.foldl_extend waits blocks ⟨rfl, rfl⟩
    rw [assembled, assembled, drafts.entries, stops]

end Schedule.Serves

/-! ### Programs for the same demand -/

namespace Output

/-- The positions at which the instructions of an output start. -/
def starts (output : Output) : List Nat :=
  output.timeline.items.map Placement.start

/-- Where the ramps of an output take place. -/
def domains (output : Output) : List (Nat × RampSpan) :=
  output.timeline.items.filterMap fun placement =>
    placement.ramp.map fun span => (placement.start, span)

/-- The output with one instruction more. -/
def insert (output : Output) (added : Placement) : Output :=
  { output with timeline := output.timeline.insert added }

variable {output : Output} {added : Placement}

theorem mem_insert (free : added.start ∉ output.starts) {placement : Placement} :
    placement ∈ (output.insert added).timeline.items ↔
      placement = added ∨ placement ∈ output.timeline.items :=
  Ordered.mem_insert_iff fun _ present taken => free (List.mem_map.2 ⟨_, present, taken⟩)

theorem mem_starts_insert (free : added.start ∉ output.starts) {position : Nat} :
    position ∈ (output.insert added).starts ↔
      added.start = position ∨ position ∈ output.starts := by
  simp only [starts, List.mem_map, mem_insert free, or_and_right, exists_or, exists_eq_left]

theorem mem_domains_insert (free : added.start ∉ output.starts) {domain : Nat × RampSpan} :
    domain ∈ (output.insert added).domains ↔
      (∃ span, added.ramp = some span ∧ (added.start, span) = domain) ∨
        domain ∈ output.domains := by
  simp only [domains, List.mem_filterMap, Option.map_eq_some_iff, mem_insert free, or_and_right,
    exists_or, exists_eq_left]

end Output

namespace Demand

theorem mem_boundaries_of_starts {clock : Pseudoclock} {outputs : List Output} {position : Nat} :
    position ∈ (of clock outputs).boundaries ↔
      position = 0 ∨ (∃ output ∈ outputs, position ∈ output.starts) ∨
        ∃ wait ∈ clock.waits.items, wait.position = position := by
  simp only [mem_boundaries_of, Output.starts, List.mem_map]

theorem domains_of (clock : Pseudoclock) (outputs : List Output) :
    (of clock outputs).windows.map Window.domain = outputs.flatMap Output.domains := by
  rw [of, List.map_flatMap]
  refine List.flatMap_congr fun output _ => ?_
  rw [Output.windows, Output.domains, List.map_filterMap]
  refine List.filterMap_congr fun placement _ => ?_
  rw [Option.map_map]
  rfl

/-- Outputs ask for the same if their instructions start at the same positions, apart from those
that are boundaries anyway, and their ramps take place in the same domains. -/
theorem same_of {clock : Pseudoclock} {first second : List Output}
    (boundaries : ∀ position, position ∈ (of clock first).boundaries ↔
      position ∈ (of clock second).boundaries)
    (domains : ∀ domain, (∃ output ∈ first, domain ∈ output.domains) ↔
      ∃ output ∈ second, domain ∈ output.domains) :
    (of clock first).Same (of clock second) where
  boundaries := boundaries
  windows := by
    intro domain
    rw [domains_of, domains_of, List.mem_flatMap, List.mem_flatMap]
    exact domains domain

end Demand

variable {clock : Pseudoclock} {first second : List Output} {stop : Nat} {settings : Settings}

/-- Outputs on the fast line keep to a stop as soon as others do that ask for the same. -/
theorem Schedule.Timely.of_same (timely : Schedule.Timely clock first stop)
    (same : (Demand.of clock first).Same (Demand.of clock second))
    (fast : ∀ output ∈ second, output.line = .fast) : Schedule.Timely clock second stop where
  positive := timely.positive
  starts := by
    intro output member placement placed
    have boundary : placement.start ∈ (Demand.of clock second).boundaries :=
      Demand.mem_boundaries_of.2 (Or.inr (Or.inl ⟨output, member, placement, placed, rfl⟩))
    exact timely.bounded.before _ ((same.boundaries _).2 boundary)
  ramps := by
    intro output member placement placed span ramp
    obtain ⟨window, windowIn, start, stops, period⟩ := same.windows.symm.exists_mem
      (Demand.mem_windows_of.2 ⟨output, member, placement, placed, span, ramp, rfl⟩)
    have inside := timely.bounded.inside window windowIn
    have whole := timely.bounded.whole window windowIn
    rw [stops] at inside
    rw [start, stops, period] at whole
    exact ⟨fast output member, inside, whole⟩
  waits := by
    intro wait member
    obtain ⟨before, free⟩ := timely.waits wait member
    refine ⟨before, fun window windowIn spans => ?_⟩
    obtain ⟨other, otherIn, start, stops, -⟩ := same.windows.symm.exists_mem windowIn
    exact free other otherIn (by omega)

namespace Pseudoclock

/-- A clock has a program for some outputs exactly if it has one for others, and it is the same one,
origin times included. -/
def SamePrograms (clock : Pseudoclock) (stop : Nat) (settings : Settings)
    (first second : List Output) : Prop :=
  ∀ program, clock.program first stop settings = .ok program ↔
    clock.program second stop settings = .ok program

theorem program_of_same (same : (Demand.of clock first).Same (Demand.of clock second))
    (fast : ∀ output ∈ second, output.line = .fast) {program : Program}
    (made : clock.program first stop settings = .ok program) :
    clock.program second stop settings = .ok program := by
  obtain ⟨timely, compatible, fits, rfl⟩ := program_eq_ok.1 made
  have serves := Schedule.gather_serves clock first stop
  have otherServes := Schedule.gather_serves clock second stop
  have otherTimely := timely.of_same same fast
  have otherCompatible := same.compatible compatible
  have agree := (serves.agree_iff timely.bounded).2 compatible
  have otherAgree := (otherServes.agree_iff otherTimely.bounded).2 otherCompatible
  obtain ⟨ticks, assembled⟩ := serves.assembled_eq otherServes same rfl rfl timely.bounded
    compatible settings
  -- The limit on the ticks is about the demand, but what is known to be the same are the schedules.
  have counts : (Demand.of clock first).tickCount stop = (Demand.of clock second).tickCount stop :=
    calc (Demand.of clock first).tickCount stop
        = (Schedule.gather clock first stop).gridTicks.length :=
          (serves.gridTicks_length timely.bounded agree).symm
      _ = (Schedule.gather clock second stop).gridTicks.length := by rw [ticks]
      _ = (Demand.of clock second).tickCount stop :=
          otherServes.gridTicks_length otherTimely.bounded otherAgree
  rw [counts] at fits
  exact program_eq_ok.2 ⟨otherTimely, otherCompatible, fits, assembled⟩

/-- What outputs on the fast line ask for determines the program. -/
theorem samePrograms_of_same (firstFast : ∀ output ∈ first, output.line = .fast)
    (secondFast : ∀ output ∈ second, output.line = .fast)
    (same : (Demand.of clock first).Same (Demand.of clock second)) :
    clock.SamePrograms stop settings first second := fun _ =>
  ⟨program_of_same same secondFast, program_of_same same.symm firstFast⟩

theorem samePrograms_of_perm (reordered : first.Perm second)
    (fast : ∀ output ∈ first, output.line = .fast) :
    clock.SamePrograms stop settings first second := by
  refine samePrograms_of_same fast (fun output member => fast output (reordered.mem_iff.2 member))
    (Demand.same_of (fun position => ?_) fun domain => ?_)
  · simp only [Demand.mem_boundaries_of_starts, reordered.mem_iff]
  · simp only [reordered.mem_iff]

/-- An instruction may stand on either of two outputs. -/
theorem samePrograms_of_moved {one other : Output} {rest : List Output} {moved : Placement}
    (before : first.Perm (one.insert moved :: other :: rest))
    (after : second.Perm (one :: other.insert moved :: rest))
    (oneFree : moved.start ∉ one.starts) (otherFree : moved.start ∉ other.starts)
    (fast : ∀ output ∈ first, output.line = .fast) :
    clock.SamePrograms stop settings first second := by
  have stillFast : ∀ output ∈ second, output.line = .fast := by
    simp only [before.mem_iff, after.mem_iff, List.forall_mem_cons] at fast ⊢
    exact fast
  refine samePrograms_of_same fast stillFast (Demand.same_of (fun position => ?_) fun domain => ?_)
  · simp only [Demand.mem_boundaries_of_starts, before.mem_iff, after.mem_iff,
      List.exists_mem_cons_iff, Output.mem_starts_insert oneFree,
      Output.mem_starts_insert otherFree, or_assoc, or_left_comm]
  · simp only [before.mem_iff, after.mem_iff, List.exists_mem_cons_iff,
      Output.mem_domains_insert oneFree, Output.mem_domains_insert otherFree, or_assoc,
      or_left_comm]

/-- A constant at a boundary asks for nothing more. -/
theorem samePrograms_of_constant {changed : Output} {rest : List Output} {added : Placement}
    (before : first.Perm (changed :: rest)) (after : second.Perm (changed.insert added :: rest))
    (constant : added.ramp = none) (free : added.start ∉ changed.starts)
    (boundary : added.start ∈ (Demand.of clock first).boundaries)
    (fast : ∀ output ∈ first, output.line = .fast) :
    clock.SamePrograms stop settings first second := by
  have stillFast : ∀ output ∈ second, output.line = .fast := by
    simp only [before.mem_iff, after.mem_iff, List.forall_mem_cons] at fast ⊢
    exact fast
  refine samePrograms_of_same fast stillFast (Demand.same_of (fun position => ?_) fun domain => ?_)
  · have more : position ∈ (Demand.of clock second).boundaries ↔
        added.start = position ∨ position ∈ (Demand.of clock first).boundaries := by
      simp only [Demand.mem_boundaries_of_starts, before.mem_iff, after.mem_iff,
        List.exists_mem_cons_iff, Output.mem_starts_insert free, or_assoc, or_left_comm]
    rw [more, or_iff_right_of_imp]
    rintro rfl
    exact boundary
  · simp only [before.mem_iff, after.mem_iff, List.exists_mem_cons_iff,
      Output.mem_domains_insert free, constant, reduceCtorEq, false_and, exists_false, false_or]

/-- What is requested determines the program, not who requests it or in which order.  Outputs on the
fast line have the same program if their instructions start at the same positions and their ramps
take place in the same domains at the same sample periods.  So the program stays the same if the
outputs are put into another order, if an instruction is moved to another output, and if an output
gets a constant more at a boundary. -/
theorem program_determined (fast : ∀ output ∈ first, output.line = .fast) (clock : Pseudoclock)
    (stop : Nat) (settings : Settings) :
    (∀ second : List Output, (∀ output ∈ second, output.line = .fast) →
      (∀ position, position ∈ first.flatMap Output.starts ↔
        position ∈ second.flatMap Output.starts) →
      (∀ domain, domain ∈ first.flatMap Output.domains ↔
        domain ∈ second.flatMap Output.domains) →
      clock.SamePrograms stop settings first second) ∧
    (∀ second, first.Perm second → clock.SamePrograms stop settings first second) ∧
    (∀ one other rest moved, first.Perm (one.insert moved :: other :: rest) →
      moved.start ∉ one.starts → moved.start ∉ other.starts →
      ∀ second, second.Perm (one :: other.insert moved :: rest) →
        clock.SamePrograms stop settings first second) ∧
    ∀ changed rest added, first.Perm (changed :: rest) → added.ramp = none →
      added.start ∉ changed.starts → added.start ∈ (Demand.of clock first).boundaries →
      ∀ second, second.Perm (changed.insert added :: rest) →
        clock.SamePrograms stop settings first second := by
  refine ⟨?_, fun second reordered => samePrograms_of_perm reordered fast, ?_, ?_⟩
  · intro second secondFast starts domains
    simp only [List.mem_flatMap] at starts domains
    refine samePrograms_of_same fast secondFast (Demand.same_of (fun position => ?_) domains)
    rw [Demand.mem_boundaries_of_starts, Demand.mem_boundaries_of_starts, starts]
  · intro one other rest moved before oneFree otherFree second after
    exact samePrograms_of_moved before after oneFree otherFree fast
  · intro changed rest added before constant free boundary second after
    exact samePrograms_of_constant before after constant free boundary fast

/-- Two staggered ramps have the program that they also have with the second of them requested once
more, and with a constant where it starts. -/
theorem staggered_determined : ∃ program,
    Pseudoclock.bare.program Output.staggered 40 {} = .ok program ∧
      Pseudoclock.bare.program [Output.twoSamples "ao/ao2" 5, Output.twoSamples "ao/ao1" 5,
        Output.twoSamples "ao/ao0" 0] 40 {} = .ok program ∧
      Pseudoclock.bare.program
        [(Output.twoSamples "ao/ao0" 0).insert ⟨5, none, .constant 1, rfl⟩,
          Output.twoSamples "ao/ao1" 5] 40 {} = .ok program := by
  have succeeds : (Pseudoclock.bare.program Output.staggered 40 {}).isOk = true := by
    decide +kernel
  obtain ⟨program, made⟩ := Checks.isOk_iff.1 succeeds
  have fast : ∀ output ∈ Output.staggered, output.line = .fast := by
    simp [Output.staggered, Output.twoSamples]
  obtain ⟨same, -, -, added⟩ := program_determined fast Pseudoclock.bare 40 {}
  refine ⟨program, made, (same _ ?_ ?_ ?_ program).1 made, (added (Output.twoSamples "ao/ao0" 0)
    [Output.twoSamples "ao/ao1" 5] ⟨5, none, .constant 1, rfl⟩ (List.Perm.refl _) rfl ?_ ?_ _
    (List.Perm.refl _) program).1 made⟩
  · simp [Output.twoSamples]
  · simp [Output.staggered, Output.starts, Output.items_twoSamples, Placement.twoSamples]
    omega
  · simp [Output.staggered, Output.domains, Output.items_twoSamples, Placement.twoSamples]
    tauto
  · simp [Output.starts, Output.items_twoSamples, Placement.twoSamples]
  · decide

end Pseudoclock

end Metronome
