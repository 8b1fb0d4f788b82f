/-
Module: Metronome.Proofs.Epochs
Purpose: A program waits at the right places, and its origin times are counted from where they
  should be.
Trusted boundary: none
Main exports:
  Stage, Staged, Entry.staged, Program.staged, Program.ticks_eq_staged, Halt,
  ProgramDraft.Dated, ProgramDraft.extend_dated, Schedule.Serves.draft_dated,
  Pseudoclock.program_epochs
-/
import Metronome.Proofs.Emission

/-!
A program does not say where its entries are.  This is counted up from its start: ticks take time,
a wait takes none and begins an epoch.  The walk that makes the program keeps the last wait in its
draft and dates every entry when it is pushed, so `ProgramDraft.Dated` says that both counts agree
at each push; a run that prolongs another one keeps the place and the date of the first tick.
-/

namespace Metronome

/-! ### Places in a program -/

/-- How far a program has got: the position, and that of the last wait. -/
structure Stage where
  position : Nat := 0
  epoch : Nat := 0

/-- The stage after an entry. -/
def Stage.pass (timeBase : Float) (stage : Stage) : Entry → Stage
  | .tick run =>
      { stage with position := stage.position + run.positions timeBase * run.repetitions }
  | .wait _ => { stage with epoch := stage.position }

/-- The time that is noted for what happens at a stage: from the start, or from the last wait if the
clock counts anew when it is triggered. -/
def Stage.time (settings : Settings) (stage : Stage) : Float :=
  match settings.waitTiming with
  | .ideal => TimeGrid.seconds stage.position settings.timeBase
  | .triggered => TimeGrid.seconds (stage.position - stage.epoch) settings.timeBase

/-- An entry with the stage at which it begins. -/
structure Staged where
  stage : Stage
  entry : Entry

/-- A wait as a program shows it. -/
structure Halt where
  position : Nat
  label : String
  timeout : Option Float

/-- What a program shows of a wait. -/
def Wait.halt (wait : Wait) : Halt :=
  ⟨wait.position, wait.label, wait.timeout⟩

namespace Staged

/-- The halt at a stage, if the entry is a wait. -/
def halt? (staged : Staged) : Option Halt :=
  staged.entry.marker?.map fun marker => ⟨staged.stage.position, marker.label, marker.timeout⟩

/-- The single ticks of an entry. -/
def ticks (timeBase : Float) (staged : Staged) : List Tick :=
  (staged.entry.run?.map fun run => run.ticks timeBase staged.stage.position).getD []

end Staged

namespace Entry

/-- The origin time of an entry. -/
def origin : Entry → Option Float
  | .tick run => run.origin
  | .wait marker => marker.origin

/-- Entries with the stages at which they begin. -/
def staged (timeBase : Float) : Stage → List Entry → List Staged
  | _, [] => []
  | stage, entry :: rest => ⟨stage, entry⟩ :: staged timeBase (stage.pass timeBase entry) rest

theorem staged_append (timeBase : Float) (stage : Stage) (first second : List Entry) :
    staged timeBase stage (first ++ second) =
      staged timeBase stage first ++
        staged timeBase (first.foldl (Stage.pass timeBase) stage) second := by
  induction first generalizing stage with
  | nil => rfl
  | cons entry rest ih => rw [List.cons_append, staged, ih, staged, List.foldl_cons]; rfl

end Entry

/-- The entries of a program with the stages at which they begin. -/
def Program.staged (program : Program) : List Staged :=
  Entry.staged program.timeBase {} program.entries

/-- Every run of a program that fits in a word has its ticks from the position on at which it
begins. -/
theorem Program.ticks_eq_staged {program : Program}
    (fits : program.nominalLength < UInt64.size) :
    program.ticks = program.staged.flatMap (Staged.ticks program.timeBase) := by
  have unrolled : ∀ (entries : List Entry) (stage : Stage),
      nominalFrom program.timeBase stage.position (entries.filterMap Entry.run?) =
        (Entry.staged program.timeBase stage entries).flatMap
          (Staged.ticks program.timeBase) := by
    intro entries
    induction entries with
    | nil => exact fun _ => rfl
    | cons entry rest ih =>
        intro stage
        rw [Entry.staged, List.flatMap_cons, ← ih]
        cases entry <;> rfl
  rw [ticks_eq_nominal fits]
  exact unrolled program.entries {}

/-! ### Entries under construction -/

namespace Entry

/-- The stage that entries, listed from the last to the first, lead to. -/
def stage (timeBase : Float) (entries : List Entry) : Stage :=
  entries.reverse.foldl (Stage.pass timeBase) {}

/-- Entries, listed from the last to the first, with the stages at which they begin. -/
def trail (timeBase : Float) (entries : List Entry) : List Staged :=
  staged timeBase {} entries.reverse

/-- The halts in entries that are listed from the last to the first. -/
def halts (timeBase : Float) (entries : List Entry) : List Halt :=
  (trail timeBase entries).filterMap Staged.halt?

variable {timeBase : Float}

@[simp] theorem stage_cons (entry : Entry) (entries : List Entry) :
    stage timeBase (entry :: entries) = (stage timeBase entries).pass timeBase entry := by
  simp [stage]

@[simp] theorem trail_cons (entry : Entry) (entries : List Entry) :
    trail timeBase (entry :: entries) =
      trail timeBase entries ++ [⟨stage timeBase entries, entry⟩] := by
  simp [trail, stage, staged_append, staged]

theorem position_stage (timeBase : Float) (entries : List Entry) :
    (stage timeBase entries).position = span timeBase entries := by
  induction entries with
  | nil => rfl
  | cons entry rest ih =>
      rw [stage_cons]
      cases entry with
      | wait marker =>
          rw [span, runs_wait]
          exact ih
      | tick run =>
          rw [Stage.pass, ih]
          simp [span, Program.length]

/-- A pushed run begins where the others end, or it leaves the last of them where it is. -/
theorem trail_pushRun (timeBase : Float) (run : Run) (entries : List Entry) :
    trail timeBase (pushRun run entries) =
        trail timeBase entries ++ [⟨stage timeBase entries, .tick run⟩] ∨
      ∃ before stage last, trail timeBase entries = before ++ [⟨stage, .tick last⟩] ∧
        trail timeBase (pushRun run entries) =
          before ++ [⟨stage, .tick { last with
            repetitions := last.repetitions + run.repetitions }⟩] := by
  rcases pushRun_cases run entries with ⟨last, rest, rfl, -, pushed⟩ | ⟨-, pushed⟩
  · rw [pushed]
    exact Or.inr ⟨_, _, last, trail_cons .., trail_cons ..⟩
  · rw [pushed]
    exact Or.inl (trail_cons ..)

theorem epoch_pushRun (timeBase : Float) (run : Run) (entries : List Entry) :
    (stage timeBase (pushRun run entries)).epoch = (stage timeBase entries).epoch := by
  rcases pushRun_cases run entries with ⟨last, rest, rfl, -, pushed⟩ | ⟨-, pushed⟩
  · rw [pushed, stage_cons, stage_cons]
    rfl
  · rw [pushed, stage_cons]
    rfl

/-- A pushed run leaves the halts. -/
theorem halts_pushRun (timeBase : Float) (run : Run) (entries : List Entry) :
    halts timeBase (pushRun run entries) = halts timeBase entries := by
  unfold halts
  rcases trail_pushRun timeBase run entries with appended | ⟨before, stage, last, old, merged⟩
  · rw [appended, List.filterMap_append]
    exact List.append_nil _
  · rw [merged, old, List.filterMap_append, List.filterMap_append]
    rfl

/-- A wait is a halt where the entries before it end. -/
theorem halts_wait (timeBase : Float) (marker : Marker) (entries : List Entry) :
    halts timeBase (.wait marker :: entries) =
      halts timeBase entries ++ [⟨span timeBase entries, marker.label, marker.timeout⟩] := by
  rw [halts, trail_cons, List.filterMap_append, ← position_stage]
  rfl

end Entry

/-! ### The walk -/

namespace ProgramDraft

variable {settings : Settings} {schedule : Schedule}

/-- A draft whose last wait is where its entries have it, and whose entries have the times of the
stages at which they begin. -/
structure Dated (settings : Settings) (draft : ProgramDraft) : Prop where
  epoch : (Entry.stage settings.timeBase draft.entries).epoch = draft.epoch
  origins : ∀ staged ∈ Entry.trail settings.timeBase draft.entries,
    staged.entry.origin = some (staged.stage.time settings)

/-- What is pushed next gets the time of the stage that has been reached. -/
theorem Dated.origin_eq {draft : ProgramDraft} (dated : draft.Dated settings) :
    draft.origin settings (Entry.span settings.timeBase draft.entries) =
      (Entry.stage settings.timeBase draft.entries).time settings := by
  have epoch := dated.epoch
  cases timing : settings.waitTiming <;>
    simp only [origin, Stage.time, timing, Entry.position_stage, epoch]

/-- A block that starts where a draft has got to is dated by its first tick. -/
theorem Dated.pushBlock {draft : ProgramDraft} (dated : draft.Dated settings) {block : Block}
    (begins : block.start = Entry.span settings.timeBase draft.entries) :
    (draft.pushBlock settings block).Dated settings := by
  constructor
  · rw [ProgramDraft.pushBlock, Entry.epoch_pushRun]
    exact dated.epoch
  · intro staged member
    rw [ProgramDraft.pushBlock, begins, dated.origin_eq] at member
    rcases Entry.trail_pushRun settings.timeBase _ draft.entries with
      appended | ⟨before, stage, last, old, merged⟩
    · rw [appended] at member
      rcases List.mem_append.1 member with inDraft | isNew
      · exact dated.origins staged inDraft
      · cases List.mem_singleton.1 isNew
        rfl
    · rw [merged] at member
      have kept := dated.origins
      rw [old] at kept
      rcases List.mem_append.1 member with inDraft | isLast
      · exact kept staged (List.mem_append_left _ inDraft)
      · cases List.mem_singleton.1 isLast
        exact kept ⟨stage, .tick last⟩ (List.mem_append_right _ (List.mem_singleton.2 rfl))

/-- A wait where a draft has got to is dated from the wait before it, and then begins an epoch. -/
theorem Dated.pushWait {draft : ProgramDraft} (dated : draft.Dated settings) {wait : Wait}
    (begins : wait.position = Entry.span settings.timeBase draft.entries) :
    (draft.pushWait settings wait).Dated settings := by
  constructor
  · rw [ProgramDraft.pushWait, Entry.stage_cons, Stage.pass, Entry.position_stage, begins]
  · intro staged member
    rw [ProgramDraft.pushWait, begins, dated.origin_eq, Entry.trail_cons] at member
    rcases List.mem_append.1 member with inDraft | isNew
    · exact dated.origins staged inDraft
    · cases List.mem_singleton.1 isNew
      rfl

/-- Blocks that go on where a draft has got to are dated, and leave the halts. -/
theorem foldl_pushBlock_dated {last : Nat}
    (faithful : TimeGrid.ExactUpTo settings.timeBase last) {blocks : List Block} {stop : Nat}
    (inside : stop ≤ last) {draft : ProgramDraft} (dated : draft.Dated settings)
    (tile : Block.Tile (Entry.span settings.timeBase draft.entries) blocks stop) :
    (blocks.foldl (pushBlock settings) draft).Dated settings ∧
      Entry.halts settings.timeBase (blocks.foldl (pushBlock settings) draft).entries =
        Entry.halts settings.timeBase draft.entries := by
  induction blocks generalizing draft with
  | nil => exact ⟨dated, rfl⟩
  | cons block rest ih =>
      have reach := tile.period_le (List.mem_cons_self ..)
      obtain ⟨begins, period, -, tail⟩ := tile
      have step := pushBlock_continues begins (faithful block.period period (by omega))
      rw [← begins, ← step.span] at tail
      obtain ⟨all, halts⟩ := ih (dated.pushBlock begins) tail
      exact ⟨all, halts.trans (Entry.halts_pushRun ..)⟩

/-- A segment is dated, and adds the halt at its start, if there is a wait. -/
theorem extend_dated {last : Nat} (faithful : TimeGrid.ExactUpTo settings.timeBase last)
    {draft : ProgramDraft} (dated : draft.Dated settings) {segment : Segment}
    (inside : segment.next ≤ last)
    (begins : segment.start = Entry.span settings.timeBase draft.entries)
    (tile : Block.Tile segment.start (schedule.blocksOf segment) segment.next) :
    (draft.extend settings schedule segment).Dated settings ∧
      Entry.halts settings.timeBase (draft.extend settings schedule segment).entries =
        Entry.halts settings.timeBase draft.entries ++
          (schedule.waits.find? segment.start).toList.map Wait.halt := by
  have entered : (draft.enter settings schedule segment).Dated settings ∧
      Entry.halts settings.timeBase (draft.enter settings schedule segment).entries =
        Entry.halts settings.timeBase draft.entries ++
          (schedule.waits.find? segment.start).toList.map Wait.halt := by
    unfold enter
    cases found : schedule.waits.find? segment.start with
    | none => exact ⟨dated, (List.append_nil _).symm⟩
    | some wait =>
        have here : wait.position = Entry.span settings.timeBase draft.entries :=
          (Ordered.find?_eq_some_iff.1 found).2.trans begins
        refine ⟨dated.pushWait here, (Entry.halts_wait ..).trans ?_⟩
        rw [← here]
        rfl
  obtain ⟨enteredDated, enteredHalts⟩ := entered
  have span : Entry.span settings.timeBase (draft.enter settings schedule segment).entries =
      segment.start := by rw [Entry.span, enter_runs, begins, Entry.span]
  rw [← span] at tile
  have counted : ({ draft.enter settings schedule segment with
      ticks := draft.ticks + ((schedule.blocksOf segment).flatMap Block.ticks).length
      sweep := draft.sweep.advance segment.start } : ProgramDraft).Dated settings :=
    ⟨enteredDated.epoch, enteredDated.origins⟩
  obtain ⟨all, halts⟩ := foldl_pushBlock_dated faithful inside counted tile
  exact ⟨all, halts.trans enteredHalts⟩

theorem foldl_extend_dated {last : Nat} (faithful : TimeGrid.ExactUpTo settings.timeBase last)
    {segments : List Segment} {stop : Nat} (inside : stop ≤ last) {draft : ProgramDraft}
    (dated : draft.Dated settings)
    (follow : Segment.Follow (Entry.span settings.timeBase draft.entries) segments stop)
    (tiles : ∀ segment ∈ segments,
      Block.Tile segment.start (schedule.blocksOf segment) segment.next) :
    (segments.foldl (extend settings schedule) draft).Dated settings ∧
      Entry.halts settings.timeBase (segments.foldl (extend settings schedule) draft).entries =
        Entry.halts settings.timeBase draft.entries ++
          (segments.flatMap fun segment =>
            (schedule.waits.find? segment.start).toList.map Wait.halt) := by
  induction segments generalizing draft with
  | nil => exact ⟨dated, (List.append_nil _).symm⟩
  | cons segment rest ih =>
      have bounds := follow.bounds (List.mem_cons_self ..)
      obtain ⟨begins, -, tail⟩ := follow
      obtain ⟨tile, others⟩ := List.forall_mem_cons.1 tiles
      have within := Nat.le_trans bounds.2.2 inside
      have step := extend_continues faithful within begins tile
      rw [← step.span] at tail
      obtain ⟨first, firstHalts⟩ := extend_dated faithful dated within begins tile
      obtain ⟨all, halts⟩ := ih first tail others
      refine ⟨all, halts.trans ?_⟩
      rw [firstHalts, List.append_assoc, List.flatMap_cons]

end ProgramDraft

/-- What stands at increasing points is all items in order, if no item stands elsewhere. -/
theorem Ordered.flatMap_find? {α : Type} {position : α → Nat} (ordered : Ordered position)
    {points : List Nat} (increasing : points.Pairwise (· < ·))
    (all : ∀ item ∈ ordered.items, position item ∈ points) :
    (points.flatMap fun point => (ordered.find? point).toList) = ordered.items := by
  have same : ∀ item, item ∈ (points.flatMap fun point => (ordered.find? point).toList) ↔
      item ∈ ordered.items := by
    intro item
    simp only [List.mem_flatMap, Option.mem_toList]
    constructor
    · intro found
      obtain ⟨point, -, there⟩ := found
      exact (find?_eq_some_iff.1 there).1
    · intro member
      exact ⟨position item, all item member, find?_eq_some_iff.2 ⟨member, rfl⟩⟩
  refine eq_of_mem_iff ?_ ordered.increasing same
  refine List.pairwise_flatMap.2 ⟨fun point _ => ?_, increasing.imp ?_⟩
  · cases ordered.find? point <;> simp
  · intro first second less one isFirst other isSecond
    rw [(find?_eq_some_iff.1 (Option.mem_toList.1 isFirst)).2,
      (find?_eq_some_iff.1 (Option.mem_toList.1 isSecond)).2]
    exact less

namespace Schedule.Serves

variable {schedule : Schedule} {demand : Demand} {settings : Settings}

/-- The entries of a program are dated, and its halts are the waits of the schedule. -/
theorem assembled_dated (serves : schedule.Serves demand) (bounded : demand.Bounded schedule.stop)
    (gates : ∀ wait ∈ schedule.waits.items, wait.position ∈ demand.boundaries)
    (faithful : TimeGrid.ExactUpTo settings.timeBase schedule.stop) :
    (∀ staged ∈ (schedule.assembled settings).staged,
      staged.entry.origin = some (staged.stage.time settings)) ∧
    (schedule.assembled settings).staged.filterMap Staged.halt? =
      schedule.waits.items.map Wait.halt := by
  have fresh : ({ sweep := { pending := schedule.windows } } : ProgramDraft).Dated settings :=
    ⟨rfl, fun _ member => absurd member List.not_mem_nil⟩
  obtain ⟨dated, halts⟩ := ProgramDraft.foldl_extend_dated faithful (Nat.le_refl _) fresh
    (serves.follow bounded) fun _ => serves.blocks_tile bounded
  refine ⟨dated.origins, halts.trans ?_⟩
  have starts := segmentsOf_starts schedule.stop schedule.boundaries.items
  have found := schedule.waits.flatMap_find? schedule.boundaries.increasing fun wait member =>
    (serves.boundaries wait.position).2 (gates wait member)
  rw [← starts, List.flatMap_map] at found
  rw [← found, List.map_flatMap]
  rfl

end Schedule.Serves

/-! ### Programs of a clock -/

/-- The stages of the entries before and after a given one. -/
theorem Program.staged_split {program : Program} {before after : List Entry} {entry : Entry}
    (split : program.entries = before ++ entry :: after) :
    program.staged = Entry.staged program.timeBase {} before ++
      ⟨before.foldl (Stage.pass program.timeBase) {}, entry⟩ ::
        Entry.staged program.timeBase
          ((before.foldl (Stage.pass program.timeBase) {}).pass program.timeBase entry) after := by
  rw [staged, split, Entry.staged_append]
  rfl

namespace Pseudoclock

variable {clock : Pseudoclock} {outputs : List Output} {stop : Nat} {settings : Settings}
  {program : Program}

/-- The entries of a program are dated, its halts are the waits of the clock, and it ends at the
stop. -/
theorem program_dated (faithful : TimeGrid.ExactUpTo settings.timeBase stop)
    (made : clock.program outputs stop settings = .ok program) :
    (∀ staged ∈ program.staged, staged.entry.origin = some (staged.stage.time settings)) ∧
      program.staged.filterMap Staged.halt? = clock.waits.items.map Wait.halt ∧
      (program.entries.foldl (Stage.pass program.timeBase) {}).position = stop := by
  have serves := Schedule.gather_serves clock outputs stop
  obtain ⟨timely, -, -, rfl⟩ := program_eq_ok.1 made
  obtain ⟨origins, halts⟩ := serves.assembled_dated timely.bounded
    (fun _ => Demand.wait_mem_boundaries outputs) faithful
  refine ⟨origins, halts, ?_⟩
  exact (Entry.position_stage ..).trans (serves.draft_continues timely.bounded faithful).span

/-- A program halts where a wait of the clock is. -/
theorem exists_wait (faithful : TimeGrid.ExactUpTo settings.timeBase stop)
    (made : clock.program outputs stop settings = .ok program) {before after : List Entry}
    {marker : Marker} (split : program.entries = before ++ .wait marker :: after) :
    ∃ wait ∈ clock.waits.items,
      wait.position = (before.foldl (Stage.pass program.timeBase) {}).position := by
  obtain ⟨-, halts, -⟩ := program_dated faithful made
  have shown : ⟨(before.foldl (Stage.pass program.timeBase) {}).position, marker.label,
      marker.timeout⟩ ∈ program.staged.filterMap Staged.halt? := by
    rw [Program.staged_split split, List.filterMap_append]
    exact List.mem_append_right _ (List.mem_cons_self ..)
  rw [halts] at shown
  obtain ⟨wait, member, same⟩ := List.mem_map.1 shown
  exact ⟨wait, member, congrArg Halt.position same⟩

/-- A program does not end with a wait. -/
theorem not_ends_with_wait (faithful : TimeGrid.ExactUpTo settings.timeBase stop)
    (made : clock.program outputs stop settings = .ok program) {before : List Entry}
    {marker : Marker} : program.entries ≠ before ++ [.wait marker] := by
  intro split
  obtain ⟨wait, member, here⟩ := exists_wait faithful made split
  obtain ⟨-, -, total⟩ := program_dated faithful made
  rw [split, List.foldl_append] at total
  obtain ⟨timely, -, -, -⟩ := program_eq_ok.1 made
  exact absurd (here.trans total) (Nat.ne_of_lt (timely.waits wait member).1)

/-- After a wait both lines tick. -/
theorem tick_after_wait (faithful : TimeGrid.ExactUpTo settings.timeBase stop)
    (made : clock.program outputs stop settings = .ok program) {before after : List Entry}
    {marker : Marker} (split : program.entries = before ++ .wait marker :: after) :
    ∃ run rest, after = .tick run :: rest ∧ run.dualRate = true := by
  obtain ⟨-, halts, -⟩ := program_dated faithful made
  cases after with
  | nil => exact absurd split (not_ends_with_wait faithful made)
  | cons entry rest =>
      cases entry with
      | wait second =>
          have increasing : (program.staged.filterMap Staged.halt?).Pairwise fun one other =>
              one.position < other.position := by
            rw [halts]
            exact List.pairwise_map.2 clock.waits.increasing
          rw [Program.staged_split split, List.filterMap_append] at increasing
          have same := (List.pairwise_cons.1 (List.pairwise_append.1 increasing).2.1).1 _
            (List.mem_cons_self ..)
          exact absurd same (Nat.lt_irrefl _)
      | tick run =>
          refine ⟨run, rest, rfl, ?_⟩
          obtain ⟨wait, member, here⟩ := exists_wait faithful made split
          have counted : 1 ≤ run.repetitions := by
            apply (program_canonical made).counted run
            rw [split]
            simp
          have ticked : ⟨wait.position, run.dualRate⟩ ∈ program.ticks := by
            rw [Program.ticks_eq_staged (program_fits faithful made), Program.staged_split split, here]
            refine List.mem_flatMap.2 ⟨_, List.mem_append_right _ (List.mem_cons_of_mem _
              (List.mem_cons_self ..)), List.mem_map.2 ⟨0, List.mem_range.2 counted, ?_⟩⟩
            rw [Nat.zero_mul]
            rfl
          exact (dualRate_iff faithful made ticked).2 (Demand.wait_mem_boundaries outputs member)

/-- What origin times are counted from has no effect on a program, up to the times themselves. -/
theorem program_of_timing (sound : clock.Sound) (word : stop < 2 ^ 64)
    (number : settings.timeBase.isNaN = false)
    (made : clock.program outputs stop settings = .ok program) (timing : WaitTiming) :
    ∃ other, clock.program outputs stop { settings with waitTiming := timing } = .ok other ∧
      (other == program) = true := by
  have serves := Schedule.gather_serves clock outputs stop
  have numeric := program_numeric sound word number made
  obtain ⟨timely, compatible, fits, rfl⟩ := program_eq_ok.1 made
  refine ⟨_, program_eq_ok.2 ⟨timely, compatible, fits, rfl⟩, ?_⟩
  have same := serves.unstamped_eq_of_timeBase timely.bounded word number
    (rfl : ({ settings with waitTiming := timing } : Settings).timeBase = settings.timeBase)
  rw [← Program.beq_unstamped, same, Program.beq_unstamped]
  exact numeric.beq_self

/-- A program waits at the right places and counts its times from there.  Its ticks are those of its
runs from the positions on at which they begin, and its halts are the waits of the clock, in order.
It begins and ends with ticks, and after every wait both lines tick.  The origin time of an entry is
that of its position, or the time since the last wait before it if the clock is triggered; the
program is the same for either. -/
theorem program_epochs (faithful : TimeGrid.ExactUpTo settings.timeBase stop)
    (sound : clock.Sound) (made : clock.program outputs stop settings = .ok program) :
    program.ticks = program.staged.flatMap (Staged.ticks program.timeBase) ∧
      program.staged.filterMap Staged.halt? = clock.waits.items.map Wait.halt ∧
      (∃ first rest, program.entries = .tick first :: rest) ∧
      (∃ before last, program.entries = before ++ [.tick last]) ∧
      (∀ before marker after, program.entries = before ++ .wait marker :: after →
        ∃ run rest, after = .tick run :: rest ∧ run.dualRate = true) ∧
      (∀ staged ∈ program.staged, staged.entry.origin = some (match settings.waitTiming with
        | .ideal => TimeGrid.seconds staged.stage.position settings.timeBase
        | .triggered =>
            TimeGrid.seconds (staged.stage.position - staged.stage.epoch) settings.timeBase)) ∧
      ∀ timing, ∃ other,
        clock.program outputs stop { settings with waitTiming := timing } = .ok other ∧
          (other == program) = true := by
  obtain ⟨origins, halts, total⟩ := program_dated faithful made
  obtain ⟨timely, -, -, -⟩ := program_eq_ok.1 made
  have nonempty : program.entries ≠ [] := by
    intro none
    rw [none] at total
    exact absurd total (Nat.ne_of_lt timely.positive)
  refine ⟨Program.ticks_eq_staged (program_fits faithful made), halts, ?_, ?_, fun _ _ _ => tick_after_wait faithful made,
    origins, program_of_timing sound faithful.lt_word (faithful.isNaN timely.positive) made⟩
  · obtain ⟨entry, rest, split⟩ := List.exists_cons_of_ne_nil nonempty
    cases entry with
    | tick run => exact ⟨run, rest, split⟩
    | wait marker =>
        have first : program.entries = [] ++ .wait marker :: rest := split
        obtain ⟨wait, member, here⟩ := exists_wait faithful made first
        have later := (sound wait member).1
        rw [here] at later
        exact absurd later (Nat.not_lt_zero 0)
  · have split := (List.dropLast_concat_getLast nonempty).symm
    cases isLast : program.entries.getLast nonempty with
    | tick run =>
        rw [isLast] at split
        exact ⟨_, run, split⟩
    | wait marker =>
        rw [isLast] at split
        exact absurd split (not_ends_with_wait faithful made)

/-- The gated clock waits at 25 and at 30, and a triggered one counts its times from there. -/
theorem gated_epochs : ∃ program,
    gated.program Output.staggered 40 { waitTiming := .triggered } = .ok program ∧
      program.staged.filterMap Staged.halt? = [⟨25, "gate", none⟩, ⟨30, "resume", some 1⟩] ∧
      (∀ staged ∈ program.staged, staged.entry.origin =
        some (TimeGrid.seconds (staged.stage.position - staged.stage.epoch) 1000000000)) ∧
      ∃ other, gated.program Output.staggered 40 { waitTiming := .ideal } = .ok other ∧
        (other == program) = true := by
  have succeeds : (gated.program Output.staggered 40 { waitTiming := .triggered }).isOk = true := by
    decide +kernel
  obtain ⟨program, made⟩ := Checks.isOk_iff.1 succeeds
  obtain ⟨-, halts, -, -, -, origins, timings⟩ :=
    program_epochs (by decide +kernel) gated_sound made
  exact ⟨program, made, halts, origins, timings .ideal⟩

end Pseudoclock

end Metronome
