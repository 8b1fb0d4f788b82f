/-
Module: Metronome.Schedule.Program
Purpose: The clock program of a schedule, built run by run.
Trusted boundary: none
Main exports:
  Block, Segment.blocks, Sweep, Schedule.walk, Schedule.program, Pseudoclock.program
-/
import Metronome.Schedule
import Metronome.Settings

/-!
A segment starts with one dual-rate tick.  While ramps are active, fast ticks follow at their
sample period until the last of them ends or the segment does; a ramp that ends inside the segment
gets one closing tick at its end, so that its final value is output.  A tick lasts until the next
one.  The ticks are never made one by one: a segment contributes at most four blocks, and blocks
of the same period and rate become one run.  The active ramps are kept up from boundary to
boundary along the ramps in the order of their starts, and are not looked up anew.
-/

namespace Metronome

/-- Equal ticks in a row on the grid. -/
structure Block where
  period : Nat
  repetitions : Nat
  dualRate : Bool
  start : Nat
deriving Repr, Inhabited, DecidableEq

namespace Segment

/-- Where the sampling of ramps stops: at the last of their ends, or with the segment. -/
def limit (segment : Segment) (active : List Window) : Nat :=
  match (active.map Window.stop).max? with
  | none => segment.next
  | some last => min last segment.next

/-- The sample ticks strictly inside the sampled part, at a sample period. -/
def interior (segment : Segment) (period : Option Nat) (limit : Nat) : Nat :=
  match period with
  | none => 0
  | some period => (limit - segment.start - 1) / period

/-- The blocks of a segment whose sampling stops at a limit. -/
def blocks (segment : Segment) (period : Option Nat) (limit : Nat) : List Block :=
  let start := segment.start
  let count := segment.interior period limit
  let sampled := match period with
    | some period =>
        if count = 0 then [⟨limit - start, 1, true, start⟩]
        else
          let last := start + count * period
          ⟨period, 1, true, start⟩ ::
            (if 1 < count then [⟨period, count - 1, false, start + period⟩] else []) ++
            [⟨limit - last, 1, false, last⟩]
    | none => [⟨limit - start, 1, true, start⟩]
  sampled ++ if limit < segment.next then [⟨segment.next - limit, 1, false, limit⟩] else []

/-- The ticks of a segment. -/
def tickCount (segment : Segment) (period : Option Nat) (limit : Nat) : Nat :=
  segment.interior period limit + 1 + if limit < segment.next then 1 else 0

end Segment

/-- The sample period that active ramps agree on, if there are any.  The first of them and the first
that differs from it are in conflict. -/
def Window.commonPeriod (timeBase : Float) (position : Nat) :
    List Window → Except Fault (Option Nat)
  | [] => .ok none
  | first :: rest =>
      match rest.find? fun window => window.period ≠ first.period with
      | none => .ok (some first.period)
      | some other =>
          .error (.conflict first.output other.output (TimeGrid.seconds position timeBase)
            (.samplePeriods (TimeGrid.seconds first.period timeBase)
              (TimeGrid.seconds other.period timeBase)))

/-- The ramps at a boundary: those that go on, in the order in which they joined, and those still to
come, in the order of their starts. -/
structure Sweep where
  active : List Window := []
  pending : List Window
deriving Repr, Inhabited, DecidableEq

/-- The ramps at the next boundary.  Those that have ended leave, then those that have started
join. -/
def Sweep.advance (position : Nat) (sweep : Sweep) : Sweep where
  active := (sweep.active.filter fun window => position < window.stop) ++
    sweep.pending.takeWhile fun window => window.start ≤ position
  pending := sweep.pending.dropWhile fun window => window.start ≤ position

/-- A program under construction. -/
structure ProgramDraft where
  sweep : Sweep
  /-- The entries so far, from the last to the first. -/
  entries : List Entry := []
  /-- The position of the last wait. -/
  epoch : Nat := 0
  /-- The ticks so far. -/
  ticks : Nat := 0

namespace ProgramDraft

/-- The origin time of what happens at a position. -/
def origin (draft : ProgramDraft) (settings : Settings) (position : Nat) : Float :=
  match settings.waitTiming with
  | .ideal => TimeGrid.seconds position settings.timeBase
  | .triggered => TimeGrid.seconds (position - draft.epoch) settings.timeBase

/-- Appends a block. -/
def pushBlock (settings : Settings) (draft : ProgramDraft) (block : Block) : ProgramDraft :=
  let run : Run := {
    period := TimeGrid.seconds block.period settings.timeBase
    repetitions := block.repetitions
    dualRate := block.dualRate
    origin := some (draft.origin settings block.start) }
  { draft with entries := Entry.pushRun run draft.entries }

/-- Appends a wait, with which a new epoch begins. -/
def pushWait (settings : Settings) (draft : ProgramDraft) (wait : Wait) : ProgramDraft :=
  let marker : Marker := {
    label := wait.label
    timeout := wait.timeout
    origin := some (draft.origin settings wait.position) }
  { draft with entries := .wait marker :: draft.entries, epoch := wait.position }

/-- Appends a segment: the wait at its start, if there is one, and its blocks.  Ramps in conflict
are reported before too many ticks. -/
def pushSegment (clockName : String) (settings : Settings) (schedule : Schedule)
    (draft : ProgramDraft) (segment : Segment) : Except Fault ProgramDraft := do
  let draft := match schedule.waits.find? segment.start with
    | some wait => draft.pushWait settings wait
    | none => draft
  let sweep := draft.sweep.advance segment.start
  let period ← Window.commonPeriod settings.timeBase segment.start sweep.active
  let limit := segment.limit sweep.active
  let ticks := draft.ticks + segment.tickCount period limit
  if settings.maxTicks < ticks then
    throw (.limit clockName (.tickCount settings.maxTicks
      (TimeGrid.seconds segment.start settings.timeBase)))
  return (segment.blocks period limit).foldl (pushBlock settings) { draft with ticks, sweep }

end ProgramDraft

/-- The draft with all segments of a schedule, appended from boundary to boundary. -/
def Schedule.walk (schedule : Schedule) (clockName : String) (settings : Settings) :
    Except Fault ProgramDraft :=
  schedule.segments.foldlM (ProgramDraft.pushSegment clockName settings schedule)
    { sweep := { pending := schedule.windows } }

/-- The program of a schedule. -/
def Schedule.program (schedule : Schedule) (clockName : String) (settings : Settings) :
    Except Fault Program := do
  let draft ← schedule.walk clockName settings
  return ⟨settings.timeBase, TimeGrid.seconds schedule.stop settings.timeBase,
    draft.entries.reverse⟩

/-- The program that makes a clock serve outputs up to a stop position. -/
def Pseudoclock.program (clock : Pseudoclock) (outputs : List Output) (stop : Nat)
    (settings : Settings) : Except Fault Program := do
  let schedule ← Schedule.of clock outputs settings.timeBase stop
  schedule.program clock.name settings

end Metronome
