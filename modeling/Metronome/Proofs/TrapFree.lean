/-
Module: Metronome.Proofs.TrapFree
Purpose: On machine words neither the compilation of a clock nor the sampling of its outputs traps.
Trusted boundary: none
Main exports:
  Guarded.Reached, Guarded.pushSegment_yields, Guarded.Reached.next, Guarded.program_yields,
  Guarded.ticksFrom_eq, Guarded.samples_yields, Guarded.never_traps
-/
import Metronome.Proofs.Admission
import Metronome.Proofs.Extent
import Metronome.Proofs.Guarded
import Metronome.Proofs.RunLength

/-!
A segment is not empty and its sampled part neither, ramps have samples that are apart, and the last
sample tick lies before the limit: so every difference in a segment is one of a larger number and a
smaller one.  From segment to segment `Guarded.Reached` is kept.  It says that the last wait is not
ahead of the walk, and bounds the ticks by the position, so that sums stay as small as the stop
position.  A sample is taken of what has started, and ticks come in order, as long as the program
fits in a word.  With valid settings it does; with a time base far below one it need not.
-/

namespace Metronome

/-- Blocks that leave no gap have no more ticks than they bridge positions. -/
theorem Block.Tile.length_le {start stop : Nat} {blocks : List Block}
    (tile : Tile start blocks stop) : start + (blocks.flatMap Block.ticks).length ≤ stop := by
  induction blocks generalizing start with
  | nil => exact Nat.le_of_eq tile
  | cons block rest ih =>
      obtain ⟨-, period, -, tail⟩ := tile
      have once := Nat.le_mul_of_pos_left block.repetitions period
      have later := ih tail
      rw [List.flatMap_cons, List.length_append, Block.ticks, List.length_map, List.length_range]
      omega

namespace Guarded

/-! ### Segments -/

section Segments

variable {segment : Segment} {period : Option Nat} {limit : Nat}

theorem interior_eq (sampled : segment.Sampled period limit) :
    interior segment period limit = some (segment.interior period limit) := by
  have start_lt := sampled.start_lt
  cases period with
  | none => rfl
  | some step =>
      have apart := sampled.apart step rfl
      simp (disch := omega) [interior, Segment.interior]

example : interior ⟨5, 9⟩ (some 3) 5 = none := by
  decide

theorem tickCount_eq (sampled : segment.Sampled period limit)
    (word : segment.next < UInt64.size) :
    tickCount segment period limit = some (segment.tickCount period limit) := by
  have few := (Segment.blocks_tile sampled).length_le
  rw [ProgramDraft.length_blocks_ticks, Segment.tickCount] at few
  rw [tickCount, interior_eq sampled, Segment.tickCount]
  simp (disch := omega)

/-- The last sample tick lies before the limit. -/
theorem last_lt (sampled : segment.Sampled period limit) {step : Nat} (isStep : period = some step) :
    segment.start + segment.interior period limit * step < limit := by
  subst isStep
  have start_lt := sampled.start_lt
  cases number : segment.interior (some step) limit with
  | zero => omega
  | succ before =>
      exact (Segment.lt_interior_iff (sampled.apart step rfl) start_lt).1 (by omega)

theorem single_eq {start stop : Nat} (le : start ≤ stop) (dualRate : Bool) :
    single start stop dualRate = some ⟨stop - start, 1, dualRate, start⟩ := by
  rw [single, Word.sub_eq le]
  rfl

theorem closingBlocks_eq : closingBlocks segment limit =
    some (if limit < segment.next then [⟨segment.next - limit, 1, false, limit⟩] else []) := by
  unfold closingBlocks
  split
  · rename_i goesOn
    rw [single_eq (Nat.le_of_lt goesOn)]
    rfl
  · rfl

theorem blocks_eq (sampled : segment.Sampled period limit) (word : segment.next < UInt64.size) :
    blocks segment period limit = some (segment.blocks period limit) := by
  have start_lt := sampled.start_lt
  have le_next := sampled.le_next
  have whole := single_eq (Nat.le_of_lt start_lt) true
  unfold blocks sampledBlocks Segment.blocks
  rw [closingBlocks_eq, interior_eq sampled]
  cases period with
  | none => simp [whole]
  | some step =>
      have apart := sampled.apart step rfl
      have before := last_lt sampled rfl
      generalize segment.interior (some step) limit = count at before
      have ending := single_eq (Nat.le_of_lt before) false
      match count with
      | 0 => simp [whole]
      | 1 =>
          rw [Nat.one_mul] at before ending
          simp (disch := omega) [ending]
      | more + 2 =>
          have once : step ≤ (more + 2) * step := Nat.le_mul_of_pos_left _ (by omega)
          simp (disch := omega) [ending]

end Segments

/-! ### Drafts -/

section Drafts

variable {settings : Settings} {schedule : Schedule} {draft : ProgramDraft} {segment : Segment}
  {clockName : String}

theorem origin_eq {position : Nat} (after : draft.epoch ≤ position) :
    origin draft settings position = some (draft.origin settings position) := by
  unfold origin ProgramDraft.origin
  cases settings.waitTiming with
  | ideal => rfl
  | triggered => simp [after]

/-- Runs that are repeated a number of times at most. -/
def RepeatedUpTo (count : Nat) (entries : List Entry) : Prop :=
  ∀ run, .tick run ∈ entries → run.repetitions ≤ count

theorem pushRun_eq {count : Nat} {entries : List Entry} (repeated : RepeatedUpTo count entries)
    {run : Run} (word : count + run.repetitions < UInt64.size) :
    pushRun run entries = some (Entry.pushRun run entries) := by
  cases entries with
  | nil => rfl
  | cons entry rest =>
      cases entry with
      | wait marker => rfl
      | tick last =>
          have most := repeated last (List.mem_cons_self ..)
          rw [pushRun, Entry.pushRun, Word.add_eq (by omega)]
          split <;> rfl

/-- A pushed run adds its repetitions at most. -/
theorem RepeatedUpTo.pushRun {count : Nat} {entries : List Entry}
    (repeated : RepeatedUpTo count entries) (run : Run) :
    RepeatedUpTo (count + run.repetitions) (Entry.pushRun run entries) := by
  intro other member
  rcases Entry.pushRun_cases run entries with ⟨last, rest, rfl, -, pushed⟩ | ⟨-, pushed⟩
  · rw [pushed] at member
    rcases List.mem_cons.1 member with same | inRest
    · cases same
      exact Nat.add_le_add_right (repeated last (List.mem_cons_self ..)) _
    · exact Nat.le_add_right_of_le (repeated other (List.mem_cons_of_mem _ inRest))
  · rw [pushed] at member
    rcases List.mem_cons.1 member with same | inEntries
    · cases same
      exact Nat.le_add_left ..
    · exact Nat.le_add_right_of_le (repeated other inEntries)

theorem pushBlock_eq {block : Block} (period : 0 < block.period) (ticks : 0 < block.repetitions)
    (after : draft.epoch ≤ block.start) {count : Nat} (repeated : RepeatedUpTo count draft.entries)
    (word : count + block.repetitions < UInt64.size) :
    pushBlock settings draft block = some (draft.pushBlock settings block) := by
  have entries : pushRun ⟨TimeGrid.seconds block.period settings.timeBase, block.repetitions,
      block.dualRate, some (draft.origin settings block.start)⟩ draft.entries = some _ :=
    pushRun_eq repeated word
  have timed : 1 ≤ block.period := period
  have ticking : 1 ≤ block.repetitions := ticks
  simp [pushBlock, timed, ticking, origin_eq after, entries, ProgramDraft.pushBlock]

/-- Blocks that leave no gap after the last wait are appended, and add their ticks at most to the
repetitions of any run.  The induction is on the blocks; each of them starts after the wait. -/
theorem pushBlocks_eq {blocks : List Block} {position stop count : Nat}
    (tile : Block.Tile position blocks stop) (after : draft.epoch ≤ position)
    (repeated : RepeatedUpTo count draft.entries)
    (word : count + (blocks.flatMap Block.ticks).length < UInt64.size) :
    pushBlocks settings draft blocks =
        some (blocks.foldl (ProgramDraft.pushBlock settings) draft) ∧
      RepeatedUpTo (count + (blocks.flatMap Block.ticks).length)
        (blocks.foldl (ProgramDraft.pushBlock settings) draft).entries := by
  induction blocks generalizing draft position count with
  | nil => exact ⟨rfl, repeated⟩
  | cons block rest ih =>
      obtain ⟨begins, period, ticks, tail⟩ := tile
      have counted : ((block :: rest).flatMap Block.ticks).length =
          block.repetitions + (rest.flatMap Block.ticks).length := by
        rw [List.flatMap_cons, List.length_append, Block.ticks, List.length_map, List.length_range]
      rw [counted, ← Nat.add_assoc] at word ⊢
      have pushed : pushBlock settings draft block = some (draft.pushBlock settings block) :=
        pushBlock_eq period ticks (begins ▸ after) repeated (by omega)
      have stillAfter : (draft.pushBlock settings block).epoch ≤
          position + block.period * block.repetitions := Nat.le_add_right_of_le after
      obtain ⟨restPushed, restRepeated⟩ := ih tail stillAfter (repeated.pushRun _) word
      refine ⟨?_, restRepeated⟩
      rw [pushBlocks, List.foldlM_cons, pushed]
      exact restPushed

/-- A wait at the start of a segment is found at its position. -/
theorem position_of_find? {wait : Wait}
    (found : schedule.waits.find? segment.start = some wait) : wait.position = segment.start :=
  (Ordered.find?_eq_some_iff.1 found).2

theorem enter_eq (after : draft.epoch ≤ segment.start) :
    enter settings schedule draft segment = some (draft.enter settings schedule segment) := by
  rw [enter, ProgramDraft.enter]
  cases found : schedule.waits.find? segment.start with
  | none => rfl
  | some wait =>
      have dated : draft.epoch ≤ wait.position := by rwa [position_of_find? found]
      dsimp only
      rw [pushWait, origin_eq dated]
      rfl

/-- At the start of a segment the last wait lies at the start or before it. -/
theorem epoch_enter (after : draft.epoch ≤ segment.start) :
    (draft.enter settings schedule segment).epoch ≤ segment.start := by
  unfold ProgramDraft.enter
  split
  · rename_i wait found
    exact Nat.le_of_eq (position_of_find? found)
  · exact after

/-- A wait is no run. -/
theorem RepeatedUpTo.enter {count : Nat} (repeated : RepeatedUpTo count draft.entries) :
    RepeatedUpTo count (draft.enter settings schedule segment).entries := by
  unfold ProgramDraft.enter
  split
  · intro run member
    rcases List.mem_cons.1 member with same | old
    · cases same
    · exact repeated run old
  · exact repeated

theorem epoch_foldl_pushBlock (blocks : List Block) :
    (blocks.foldl (ProgramDraft.pushBlock settings) draft).epoch = draft.epoch := by
  induction blocks generalizing draft with
  | nil => rfl
  | cons block rest ih => rw [List.foldl_cons, ih, ProgramDraft.pushBlock]

/-! ### The walk -/

/-- What the walk has reached before it enters a segment that starts at a position: the ramps up to
there are swept up, the last wait is not later, and there are no more ticks than positions, nor more
repetitions of any run than ticks. -/
structure Reached (schedule : Schedule) (position : Nat) (draft : ProgramDraft) : Prop where
  swept : Sweep.Swept schedule.windows position draft.sweep
  epoch : draft.epoch ≤ position
  ticks : draft.ticks ≤ position
  repeated : RepeatedUpTo draft.ticks draft.entries

variable {demand : Demand}

/-- The ramps that are active when a segment is entered. -/
theorem Reached.active (reached : Reached schedule segment.start draft)
    (serves : schedule.Serves demand) (bounded : demand.Bounded schedule.stop) :
    (draft.sweep.advance segment.start).active = schedule.active segment.start :=
  reached.swept.advance_active serves.sorted fun window member =>
    bounded.nonempty window ((serves.windows window).1 member)

/-- The blocks of a segment can be appended to what has been reached, and no run gets more repetitions
than there are ticks. -/
theorem Reached.pushBlocks (reached : Reached schedule segment.start draft)
    (serves : schedule.Serves demand) (bounded : demand.Bounded schedule.stop)
    (word : schedule.stop < UInt64.size) (member : segment ∈ schedule.segments) (ticks : Nat)
    (sweep : Sweep) :
    let entered := { draft.enter settings schedule segment with ticks, sweep }
    let extended := (schedule.blocksOf segment).foldl (ProgramDraft.pushBlock settings) entered
    Guarded.pushBlocks settings entered (schedule.blocksOf segment) = some extended ∧
      RepeatedUpTo (draft.ticks + ((schedule.blocksOf segment).flatMap Block.ticks).length)
        extended.entries := by
  have tile := serves.blocks_tile bounded member
  have few := tile.length_le
  have inside := ((serves.follow bounded).bounds member).2.2
  have before := reached.ticks
  exact pushBlocks_eq tile (epoch_enter reached.epoch) reached.repeated.enter (by omega)

/-- A step of the walk does not trap. -/
theorem pushSegment_yields (reached : Reached schedule segment.start draft)
    (serves : schedule.Serves demand) (bounded : demand.Bounded schedule.stop)
    (word : schedule.stop < UInt64.size) (member : segment ∈ schedule.segments) :
    Yields (pushSegment clockName settings schedule draft segment)
      (draft.pushSegment clockName settings schedule segment) := by
  have inside := ((serves.follow bounded).bounds member).2.2
  have sampled := serves.sampled bounded member
  have few := (Segment.blocks_tile sampled).length_le
  have before := reached.ticks
  rw [ProgramDraft.length_blocks_ticks] at few
  rw [ProgramDraft.pushSegment_eq (reached.active serves bounded)]
  apply yields_checked (enter_eq reached.epoch)
  simp only [ProgramDraft.enter_sweep, ProgramDraft.enter_ticks, reached.active serves bounded]
  apply yields_bind (yields_lift _)
  intro period agreed
  have common : period = schedule.period segment.start := (Window.commonPeriod_eq_ok.1 agreed).2
  rw [← common] at sampled few
  apply yields_checked (tickCount_eq sampled (by omega))
  apply yields_checked (Word.add_eq (by omega))
  apply yields_checked (Word.ensure_eq (by omega))
  split
  · exact yields_throw _
  · apply yields_checked (blocks_eq sampled (by omega))
    rw [common]
    exact yields_value (reached.pushBlocks serves bounded word member _ _).1

/-- A step of the walk leads to the next segment. -/
theorem Reached.next (reached : Reached schedule segment.start draft)
    (serves : schedule.Serves demand) (bounded : demand.Bounded schedule.stop)
    (word : schedule.stop < UInt64.size) (member : segment ∈ schedule.segments)
    {further : ProgramDraft}
    (made : draft.pushSegment clockName settings schedule segment = .ok further) :
    Reached schedule segment.next further := by
  obtain ⟨-, -, rfl⟩ := (ProgramDraft.pushSegment_eq_ok (reached.active serves bounded)).1 made
  have ahead := ((serves.follow bounded).bounds member).2.1
  have few := (serves.blocks_tile bounded member).length_le
  have before := reached.ticks
  constructor
  · rw [ProgramDraft.sweep_extend]
    refine reached.swept.next serves.sorted (fun window inWindows => ?_) ahead
      (serves.starts_apart bounded segment member)
    exact bounded.nonempty window ((serves.windows window).1 inWindows)
  · rw [ProgramDraft.extend, epoch_foldl_pushBlock]
    exact Nat.le_trans (epoch_enter reached.epoch) (Nat.le_of_lt ahead)
  · rw [ProgramDraft.ticks_extend]
    omega
  · rw [ProgramDraft.ticks_extend]
    exact (reached.pushBlocks serves bounded word member _ _).2

/-- The walk does not trap.  The induction is on the segments, which follow each other. -/
theorem foldlM_pushSegment_yields (serves : schedule.Serves demand)
    (bounded : demand.Bounded schedule.stop) (word : schedule.stop < UInt64.size)
    {segments : List Segment} {position stop : Nat}
    (follow : Segment.Follow position segments stop)
    (members : ∀ segment ∈ segments, segment ∈ schedule.segments)
    (reached : Reached schedule position draft) :
    Yields (segments.foldlM (pushSegment clockName settings schedule) draft)
      (segments.foldlM (ProgramDraft.pushSegment clockName settings schedule) draft) := by
  induction segments generalizing position draft with
  | nil => exact yields_pure draft
  | cons segment rest ih =>
      obtain ⟨rfl, -, tail⟩ := follow
      obtain ⟨member, others⟩ := List.forall_mem_cons.1 members
      rw [List.foldlM_cons, List.foldlM_cons]
      apply yields_bind (pushSegment_yields reached serves bounded word member)
      intro further made
      exact ih tail others (reached.next serves bounded word member made)

end Drafts

/-! ### Programs -/

variable {clock : Pseudoclock} {outputs : List Output} {stop : Nat} {settings : Settings}

theorem checkPlacement_yields (output : Output) (timeBase : Float) (stop : Nat)
    (placement : Placement) :
    Yields (checkPlacement output timeBase stop placement)
      (output.checkPlacement timeBase stop placement) := by
  unfold checkPlacement Output.checkPlacement
  split
  · exact yields_throw _
  · cases ramp : placement.ramp with
    | none => exact yields_pure ()
    | some span =>
        obtain ⟨nonempty, sampled⟩ := placement.fits_of_ramp ramp
        dsimp only
        split
        · exact yields_throw _
        · split
          · exact yields_throw _
          · apply yields_checked (Word.sub_eq (Nat.le_of_lt nonempty))
            apply yields_checked (Word.rem_eq sampled)
            split
            · exact yields_throw _
            · exact yields_pure ()

theorem schedule_yields (clock : Pseudoclock) (outputs : List Output) (timeBase : Float)
    (stop : Nat) :
    Yields (schedule clock outputs timeBase stop) (Schedule.of clock outputs timeBase stop) := by
  unfold schedule Schedule.of
  by_cases empty : stop = 0
  · simp only [empty, if_true]
    exact yields_throw _
  · simp only [empty, if_false]
    apply yields_bind
    · exact yields_forM fun output _ => yields_forM fun placement _ =>
        checkPlacement_yields output timeBase stop placement
    · intro _ _
      apply yields_bind
      · exact yields_forM fun wait _ => yields_lift _
      · intro _ _
        exact yields_pure _

/-- Compilation does not trap, whatever becomes of it. -/
theorem program_yields (word : stop < UInt64.size) :
    Yields (program clock outputs stop settings) (clock.program outputs stop settings) := by
  unfold program Pseudoclock.program
  apply yields_bind (schedule_yields ..)
  intro gathered made
  obtain ⟨timely, rfl⟩ := Schedule.of_eq_ok.1 made
  have serves := Schedule.gather_serves clock outputs stop
  have bounded := timely.bounded
  have begun : Reached (Schedule.gather clock outputs stop) 0
      { sweep := { pending := (Schedule.gather clock outputs stop).windows } } :=
    ⟨Sweep.swept_start _, le_rfl, le_rfl, fun _ member => absurd member List.not_mem_nil⟩
  apply yields_bind (foldlM_pushSegment_yields serves bounded word (serves.follow bounded)
    (fun _ member => member) begun)
  intro draft _
  exact yields_pure _

/-! ### Ticks -/

/-- Checked steps that all give a value can be made on a whole list. -/
theorem mapM_eq {α β : Type} {make : α → Option β} {value : α → β} {items : List α}
    (each : ∀ item ∈ items, make item = some (value item)) :
    items.mapM make = some (items.map value) := by
  induction items with
  | nil => rfl
  | cons first rest ih =>
      obtain ⟨firstMade, restMade⟩ := List.forall_mem_cons.1 each
      rw [List.mapM_cons, firstMade, ih restMade]
      rfl

theorem runTicks_eq {timeBase : Float} {start : Nat} {run : Run}
    (fits : start + run.positions timeBase * run.repetitions < UInt64.size) :
    runTicks timeBase start run = some (run.ticks timeBase start) := by
  refine mapM_eq fun k inRange => ?_
  have inRun := Run.offset_le inRange timeBase
  rw [Word.mul_eq (by omega)]
  dsimp only [Option.bind_eq_bind, Option.bind_some]
  rw [Word.add_eq (by omega)]
  rfl

/-- The ticks of runs are unrolled without a trap if they fit in a word. -/
theorem ticksFrom_eq {timeBase : Float} {start : Nat} {runs : List Run}
    (fits : start + Program.length timeBase runs < UInt64.size) :
    ticksFrom timeBase start runs = some (Program.nominalFrom timeBase start runs) := by
  induction runs generalizing start with
  | nil => rfl
  | cons run rest ih =>
      have total : Program.length timeBase (run :: rest) =
          run.positions timeBase * run.repetitions + Program.length timeBase rest := rfl
      rw [ticksFrom, Word.mul_eq (by omega)]
      dsimp only [Option.bind_eq_bind, Option.bind_some]
      rw [Word.add_eq (by omega), runTicks_eq (by omega)]
      dsimp only [Option.bind_some]
      rw [ih (by omega)]
      rfl

theorem foldlM_add_eq {runs : List Run} {count : Nat}
    (fits : count + (runs.map Run.repetitions).foldr (· + ·) 0 < UInt64.size) :
    runs.foldlM (fun count run => Word.add count run.repetitions) count =
      some (count + (runs.map Run.repetitions).foldr (· + ·) 0) := by
  induction runs generalizing count with
  | nil => rfl
  | cons run rest ih =>
      rw [List.map_cons, List.foldr_cons, ← Nat.add_assoc] at fits ⊢
      rw [List.foldlM_cons, Word.add_eq (by omega)]
      exact ih fits

/-- The ticks on a line are counted without a trap if those on the fast line are. -/
theorem lineCount_eq {program : Program} (few : program.tickCount .fast < UInt64.size)
    (line : ClockLine) : lineCount line program.runs = some (program.tickCount line) := by
  have fewer : program.tickCount line ≤ program.tickCount .fast := by
    rw [← Program.length_lineTicks, ← Program.length_lineTicks, Program.lineTicks_fast]
    exact List.length_filter_le ..
  have counted : 0 + program.tickCount line = program.tickCount line := Nat.zero_add _
  rw [← counted, lineCount]
  exact foldlM_add_eq (by
    rw [Nat.zero_add]
    exact Nat.lt_of_le_of_lt fewer few)

/-! ### Samples -/

/-- What is current at a position has started. -/
theorem advance_started {position : Nat} {current : Option Placement} (upcoming : List Placement)
    (started : ∀ placement, current = some placement → placement.start ≤ position) :
    ∀ placement, (Output.advance position current upcoming).1 = some placement →
      placement.start ≤ position := by
  induction upcoming generalizing current with
  | nil => exact started
  | cons next rest ih =>
      rw [Output.advance]
      split
      · rename_i reached
        apply ih
        intro placement same
        cases same
        exact reached
      · exact started

/-- The value of what has started does not trap. -/
theorem value_eq {output : Output} {timeBase : Float} {position : Nat}
    {current : Option Placement}
    (started : ∀ placement, current = some placement → placement.start ≤ position) :
    value output timeBase position current = some (output.value timeBase position current) := by
  cases current with
  | none => rfl
  | some placement =>
      have reached := started placement rfl
      rw [value, placementValue, Output.value]
      cases ramp : placement.ramp with
      | none => exact congrArg some (Placement.value_of_constant ramp).symm
      | some span =>
          have nonempty := (placement.fits_of_ramp ramp).1
          have length : span.stop - placement.start ≠ 0 := by omega
          rw [Placement.value_of_ramp ramp reached]
          simp [Nat.le_of_lt nonempty, length, reached]

/-- Sampling does not trap on ticks in order.  The induction is on the ticks; what is current at one of
them has started at all later ones. -/
theorem samplesFrom_yields {output : Output} {timeBase : Float} {ticks : List Tick}
    (ordered : ticks.Pairwise fun first second => first.position ≤ second.position)
    {taken : List Float} {current : Option Placement} {upcoming : List Placement}
    (started : ∀ tick ∈ ticks, ∀ placement, current = some placement →
      placement.start ≤ tick.position) :
    Yields (samplesFrom output timeBase taken current upcoming ticks)
      (output.samplesFrom timeBase taken current upcoming ticks) := by
  induction ticks generalizing taken current upcoming with
  | nil => exact yields_pure _
  | cons tick rest ih =>
      obtain ⟨later, restOrdered⟩ := List.pairwise_cons.1 ordered
      have now := advance_started upcoming (started tick (List.mem_cons_self ..))
      have reached : ∀ other ∈ rest, ∀ placement,
          (Output.advance tick.position current upcoming).1 = some placement →
          placement.start ≤ other.position := fun other member placement isCurrent =>
        Nat.le_trans (now placement isCurrent) (later other member)
      rw [samplesFrom, Output.samplesFrom]
      apply yields_checked (value_eq now)
      dsimp only
      cases output.checkSample timeBase tick.position (output.value timeBase tick.position
        (Output.advance tick.position current upcoming).1) with
      | error fault => exact yields_throw fault
      | ok _ => exact ih restOrdered reached

/-- Sampling does not trap on a program that fits in a word. -/
theorem samples_yields {made : Program} (fits : made.nominalLength < UInt64.size)
    (few : made.tickCount .fast < UInt64.size) (output : Output) :
    Yields (samples output made) (output.samples made) := by
  have zero : 0 + Program.length made.timeBase made.runs < UInt64.size := by
    rwa [Nat.zero_add]
  have ticks : Program.nominalFrom made.timeBase 0 made.runs = made.ticks :=
    (Program.ticks_eq_nominal fits).symm
  rw [samples]
  apply yields_checked (lineCount_eq few output.line)
  apply yields_checked (ticksFrom_eq zero)
  rw [ticks]
  exact samplesFrom_yields (Program.lineTicks_ordered fits output.line)
    fun _ _ _ none => nomatch none

/-- A program has no more ticks than positions up to its stop. -/
theorem tickCount_le_stop {made : Program} (compiled : clock.program outputs stop settings = .ok made) :
    made.tickCount .fast ≤ stop := by
  rw [Pseudoclock.tickCount_program compiled, Demand.tickCount]
  exact List.countP_le_length.trans_eq List.length_range

/-- Two ramps that begin one after the other, and not at once. -/
def successive : List Output :=
  [.twoSamples "ao/ao0" 10, .twoSamples "ao/ao1" 11]

end Guarded

end Metronome
