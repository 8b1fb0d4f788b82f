/-
Module: Metronome.Proofs.Guarded
Purpose: The compilation of a clock and the sampling of an output on machine words, where an
  operation without a proper result traps.
Trusted boundary: none
Main exports:
  Word, Guarded, Guarded.Yields, Guarded.pushBlock, Guarded.pushSegment, Guarded.program,
  Guarded.ticksFrom, Guarded.samples
-/
import Metronome.Output
import Metronome.Proofs.Schedule
import Metronome.Schedule.Program

/-!
Positions and counts are natural numbers, whose subtraction stops at zero, whose division by zero is
zero and whose sums have no limit.  On machine words each of these is a trap, also where positions
would begin again at zero.  The functions here are those that make programs, ticks and samples, with
every operation checked, and with traps for blocks without ticks and for more ticks than positions.
A computation on words that does not trap gives a result or raises a fault.

The ticks of a program are counted and unrolled before the first of them is sampled, so that a trap
at a late tick comes before a fault at an early one.
-/

namespace Metronome

/-! ### Words -/

namespace Word

variable {first second : Nat}

/-- A sum, unless it is too large for a word. -/
def add (first second : Nat) : Option Nat :=
  if first + second < UInt64.size then some (first + second) else none

/-- A difference, unless more is taken away than is there. -/
def sub (first second : Nat) : Option Nat :=
  if second ≤ first then some (first - second) else none

/-- A product, unless it is too large for a word. -/
def mul (first second : Nat) : Option Nat :=
  if first * second < UInt64.size then some (first * second) else none

/-- A quotient, unless the divisor is zero. -/
def div (first second : Nat) : Option Nat :=
  if second = 0 then none else some (first / second)

/-- A remainder, unless the divisor is zero. -/
def rem (first second : Nat) : Option Nat :=
  if second = 0 then none else some (first % second)

/-- Goes on only if a condition holds. -/
def ensure (condition : Prop) [Decidable condition] : Option Unit :=
  if condition then some () else none

@[simp] theorem add_eq (fits : first + second < UInt64.size) :
    add first second = some (first + second) :=
  if_pos fits

@[simp] theorem sub_eq (le : second ≤ first) : sub first second = some (first - second) :=
  if_pos le

@[simp] theorem mul_eq (fits : first * second < UInt64.size) :
    mul first second = some (first * second) :=
  if_pos fits

@[simp] theorem div_eq (positive : 0 < second) : div first second = some (first / second) :=
  if_neg (Nat.ne_of_gt positive)

@[simp] theorem rem_eq (positive : 0 < second) : rem first second = some (first % second) :=
  if_neg (Nat.ne_of_gt positive)

@[simp] theorem ensure_eq {condition : Prop} [Decidable condition] (holds : condition) :
    ensure condition = some () :=
  if_pos holds

end Word

/-! ### Computations on words -/

/-- A computation on words: it traps, raises a fault or gives a result. -/
abbrev Guarded (α : Type) : Type :=
  ExceptT Fault Option α

namespace Guarded

variable {α β : Type}

/-- The computation does not trap, and it has an outcome: a result or a fault. -/
def Yields (computation : Guarded α) (outcome : Except Fault α) : Prop :=
  computation.run = some outcome

theorem yields_pure (value : α) : Yields (pure value) (.ok value) :=
  rfl

theorem yields_throw (fault : Fault) : Yields (throw fault : Guarded α) (.error fault) :=
  rfl

/-- A step without arithmetic has its outcome. -/
theorem yields_lift (outcome : Except Fault α) : Yields (liftM outcome : Guarded α) outcome :=
  rfl

/-- Checked operations that give a value can be left out. -/
theorem yields_checked {operation : Option β} {value : β} {rest : β → Guarded α}
    {outcome : Except Fault α} (passes : operation = some value)
    (continues : Yields (rest value) outcome) :
    Yields (liftM operation >>= rest) outcome := by
  subst passes
  exact continues

/-- A checked operation that gives a value has it for its outcome. -/
theorem yields_value {operation : Option α} {value : α} (passes : operation = some value) :
    Yields (liftM operation) (.ok value) := by
  subst passes
  exact yields_pure value

/-- Computations in sequence have the outcome of their outcomes in sequence. -/
theorem yields_bind {first : Guarded β} {rest : β → Guarded α} {outcome : Except Fault β}
    {continued : β → Except Fault α} (begins : Yields first outcome)
    (continues : ∀ value, outcome = .ok value → Yields (rest value) (continued value)) :
    Yields (first >>= rest) (outcome >>= continued) := by
  rw [Yields, ExceptT.run_bind, begins]
  cases outcome with
  | error fault => rfl
  | ok value => exact continues value rfl

theorem yields_forM {check : β → Guarded Unit} {checked : β → Except Fault Unit} {items : List β}
    (each : ∀ item ∈ items, Yields (check item) (checked item)) :
    Yields (items.forM check) (items.forM checked) := by
  induction items with
  | nil => exact yields_pure ()
  | cons first rest ih =>
      obtain ⟨firstYields, restYields⟩ := List.forall_mem_cons.1 each
      exact yields_bind firstYields fun _ _ => ih restYields

end Guarded

/-! ### The clock -/

namespace Guarded

/-- Accepts a placement that ends in time. -/
def checkPlacement (output : Output) (timeBase : Float) (stop : Nat) (placement : Placement) :
    Guarded Unit := do
  let seconds := fun position => TimeGrid.seconds position timeBase
  let refuse (cause : TimelineCause) : Guarded Unit :=
    throw (.timeline output.name (seconds placement.start) cause)
  if stop ≤ placement.start then
    refuse (.startPastStop placement.instruction (seconds stop))
  else
    match placement.ramp with
    | none => pure ()
    | some span =>
        if output.line = .slow then refuse .rampOnSlowLine
        else if stop < span.stop then refuse (.rampPastStop (seconds span.stop) (seconds stop))
        else
          let length ← Word.sub span.stop placement.start
          let rest ← Word.rem length span.period
          if rest ≠ 0 then
            refuse (.partialSample (seconds length) (seconds span.period)
              (Number.ofWord length / Number.ofWord span.period))
          else pure ()

/-- The demands of outputs and waits. -/
def schedule (clock : Pseudoclock) (outputs : List Output) (timeBase : Float) (stop : Nat) :
    Guarded Schedule := do
  if stop = 0 then throw (.timeline clock.name 0 .stopNotPositive)
  outputs.forM fun output => output.timeline.items.forM (checkPlacement output timeBase stop)
  clock.waits.items.forM fun wait =>
    liftM (Schedule.checkWait clock (outputs.flatMap Output.windows) timeBase stop wait)
  return Schedule.gather clock outputs stop

/-- The sample ticks strictly inside the sampled part of a segment. -/
def interior (segment : Segment) (period : Option Nat) (limit : Nat) : Option Nat :=
  match period with
  | none => some 0
  | some period => do
      let sampled ← Word.sub limit segment.start
      Word.div (← Word.sub sampled 1) period

/-- The ticks of a segment. -/
def tickCount (segment : Segment) (period : Option Nat) (limit : Nat) : Option Nat := do
  let count ← interior segment period limit
  Word.add (← Word.add count 1) (if limit < segment.next then 1 else 0)

/-- One tick that lasts from a position to another one. -/
def single (start stop : Nat) (dualRate : Bool) : Option Block := do
  return ⟨← Word.sub stop start, 1, dualRate, start⟩

/-- The blocks of a segment up to its limit. -/
def sampledBlocks (segment : Segment) (period : Option Nat) (limit : Nat) :
    Option (List Block) := do
  let count ← interior segment period limit
  match period with
  | none => return [← single segment.start limit true]
  | some period =>
      if count = 0 then return [← single segment.start limit true]
      else
        let last ← Word.add segment.start (← Word.mul count period)
        let ending ← single last limit false
        if 1 < count then
          return [⟨period, 1, true, segment.start⟩,
            ⟨period, ← Word.sub count 1, false, ← Word.add segment.start period⟩, ending]
        else return [⟨period, 1, true, segment.start⟩, ending]

/-- The closing tick of a segment that goes on after its limit. -/
def closingBlocks (segment : Segment) (limit : Nat) : Option (List Block) :=
  if limit < segment.next then return [← single limit segment.next false] else return []

/-- The blocks of a segment. -/
def blocks (segment : Segment) (period : Option Nat) (limit : Nat) : Option (List Block) := do
  return (← sampledBlocks segment period limit) ++ (← closingBlocks segment limit)

/-- The origin time of what happens at a position. -/
def origin (draft : ProgramDraft) (settings : Settings) (position : Nat) : Option Float :=
  match settings.waitTiming with
  | .ideal => some (TimeGrid.seconds position settings.timeBase)
  | .triggered => do
      let passed ← Word.sub position draft.epoch
      return TimeGrid.seconds passed settings.timeBase

/-- Appends a run to entries that are listed from the last to the first. -/
def pushRun (run : Run) : List Entry → Option (List Entry)
  | .tick last :: rest =>
      if last.period == run.period && last.dualRate == run.dualRate then do
        let repetitions ← Word.add last.repetitions run.repetitions
        return .tick { last with repetitions } :: rest
      else some (.tick run :: .tick last :: rest)
  | entries => some (.tick run :: entries)

/-- Appends a block, which has to have ticks that take time. -/
def pushBlock (settings : Settings) (draft : ProgramDraft) (block : Block) :
    Option ProgramDraft := do
  Word.ensure (1 ≤ block.period)
  Word.ensure (1 ≤ block.repetitions)
  let start ← origin draft settings block.start
  let entries ← pushRun {
    period := TimeGrid.seconds block.period settings.timeBase
    repetitions := block.repetitions
    dualRate := block.dualRate
    origin := some start } draft.entries
  return { draft with entries }

/-- Appends a wait, with which a new epoch begins. -/
def pushWait (settings : Settings) (draft : ProgramDraft) (wait : Wait) : Option ProgramDraft := do
  let start ← origin draft settings wait.position
  let marker : Marker := { label := wait.label, timeout := wait.timeout, origin := some start }
  return { draft with entries := .wait marker :: draft.entries, epoch := wait.position }

/-- The draft after the wait at the start of a segment, if there is one. -/
def enter (settings : Settings) (schedule : Schedule) (draft : ProgramDraft)
    (segment : Segment) : Option ProgramDraft :=
  match schedule.waits.find? segment.start with
  | some wait => pushWait settings draft wait
  | none => some draft

/-- Appends blocks. -/
def pushBlocks (settings : Settings) (draft : ProgramDraft) (blocks : List Block) :
    Option ProgramDraft :=
  blocks.foldlM (pushBlock settings) draft

/-- Appends a segment.  There are no more ticks than positions. -/
def pushSegment (clockName : String) (settings : Settings) (schedule : Schedule)
    (draft : ProgramDraft) (segment : Segment) : Guarded ProgramDraft := do
  let draft ← enter settings schedule draft segment
  let sweep := draft.sweep.advance segment.start
  let period ← Window.commonPeriod settings.timeBase segment.start sweep.active
  let limit := segment.limit sweep.active
  let count ← tickCount segment period limit
  let ticks ← Word.add draft.ticks count
  Word.ensure (ticks ≤ schedule.stop)
  if settings.maxTicks < ticks then
    throw (.limit clockName (.tickCount settings.maxTicks
      (TimeGrid.seconds segment.start settings.timeBase)))
  let blocks ← blocks segment period limit
  pushBlocks settings { draft with ticks, sweep } blocks

/-- The draft with all segments of a schedule. -/
def walk (schedule : Schedule) (clockName : String) (settings : Settings) : Guarded ProgramDraft :=
  schedule.segments.foldlM (pushSegment clockName settings schedule)
    { sweep := { pending := schedule.windows } }

/-- The program that makes a clock serve outputs up to a stop position. -/
def program (clock : Pseudoclock) (outputs : List Output) (stop : Nat) (settings : Settings) :
    Guarded Program := do
  let schedule ← schedule clock outputs settings.timeBase stop
  let draft ← walk schedule clock.name settings
  return ⟨settings.timeBase, TimeGrid.seconds schedule.stop settings.timeBase,
    draft.entries.reverse⟩

/-! ### Ticks -/

/-- The number of ticks of runs on a line. -/
def lineCount (line : ClockLine) (runs : List Run) : Option Nat :=
  (runs.filter (Program.seenOn line)).foldlM (fun count run => Word.add count run.repetitions) 0

/-- The single ticks of a run that begins at a position. -/
def runTicks (timeBase : Float) (start : Nat) (run : Run) : Option (List Tick) :=
  (List.range run.repetitions).mapM fun k => do
    let passed ← Word.mul k (run.positions timeBase)
    return ⟨← Word.add start passed, run.dualRate⟩

/-- The ticks of runs that begin at a position.  There has to be a position at the end of each of
them, the last one too. -/
def ticksFrom (timeBase : Float) (start : Nat) : List Run → Option (List Tick)
  | [] => some []
  | run :: rest => do
      let length ← Word.mul (run.positions timeBase) run.repetitions
      let next ← Word.add start length
      return (← runTicks timeBase start run) ++ (← ticksFrom timeBase next rest)

/-! ### Outputs -/

/-- The value of a placed instruction at a position.  The domain of a ramp has a length. -/
def placementValue (placement : Placement) (timeBase : Float) (position : Nat) : Option Float :=
  match placement.ramp with
  | none => some placement.instruction.level
  | some span => do
      let length ← Word.sub span.stop placement.start
      Word.ensure (length ≠ 0)
      let passed ← Word.sub position placement.start
      return placement.instruction.evaluate (Number.ofWord passed / Number.ofWord length)
        (TimeGrid.seconds length timeBase)

/-- The value while an instruction is current. -/
def value (output : Output) (timeBase : Float) (position : Nat) :
    Option Placement → Option Float
  | none => some output.default
  | some placement => placementValue placement timeBase position

/-- The samples on the remaining ticks, after those already taken. -/
def samplesFrom (output : Output) (timeBase : Float) (taken : List Float)
    (current : Option Placement) (upcoming : List Placement) : List Tick → Guarded (List Float)
  | [] => pure taken.reverse
  | tick :: rest => do
      let (current, upcoming) := Output.advance tick.position current upcoming
      let sample ← value output timeBase tick.position current
      output.checkSample timeBase tick.position sample
      samplesFrom output timeBase (sample :: taken) current upcoming rest

/-- One sample for each tick on the output's line. -/
def samples (output : Output) (program : Program) : Guarded (List Float) := do
  let _ ← lineCount output.line program.runs
  let ticks ← ticksFrom program.timeBase 0 program.runs
  samplesFrom output program.timeBase [] none output.timeline.items
    (ticks.filter fun tick => output.line = .fast || tick.dualRate)

end Guarded

end Metronome
