/-
Module: Metronome.Program
Purpose: The run-length coded signal of a pseudoclock, and its views as events and as ticks.
Trusted boundary: none
Main exports:
  Run, Marker, Entry, Program, Program.events, Program.compress, Program.ticks, Program.tickCount
-/
import Metronome.Kind
import Metronome.TimeGrid

/-!
A program is a list of runs of equal ticks, with a marker where the clock waits.  Two views say
what it means: its events, one for each single tick and each wait, and its ticks, which carry
positions on the grid.  `compress` goes back from events to runs.  Origin times are informative
and take no part in comparisons.

Positions are words of 64 bits.  A program can lead past the last of them, and its positions then
begin again at zero.
-/

namespace Metronome

/-- Equal ticks in a row. -/
structure Run where
  /-- The seconds from one tick to the next. -/
  period : Float
  repetitions : Nat
  /-- Whether the slow line ticks too. -/
  dualRate : Bool
  /-- The time of the first tick. -/
  origin : Option Float := none
deriving Inhabited

/-- A halt until a trigger arrives. -/
structure Marker where
  label : String
  timeout : Option Float
  /-- The time of the wait. -/
  origin : Option Float := none
deriving Inhabited

/-- A part of a program. -/
inductive Entry where
  | tick (run : Run)
  | wait (marker : Marker)
deriving Inhabited

/-- A single tick or a wait. -/
inductive Event where
  | tick (period : Float) (dualRate : Bool)
  | wait (marker : Marker)
deriving Inhabited

/-- A single tick with its position on the grid. -/
structure Tick where
  position : Nat
  dualRate : Bool
deriving Repr, Inhabited, DecidableEq

/-- The signal of a pseudoclock up to a stop time in seconds. -/
structure Program where
  timeBase : Float
  stopTime : Float
  entries : List Entry
deriving Inhabited

instance : BEq Run where
  beq first second := first.period == second.period && first.repetitions == second.repetitions &&
    first.dualRate == second.dualRate

instance : BEq Marker where
  beq first second := first.label == second.label && first.timeout == second.timeout

instance : BEq Entry where
  beq
    | .tick first, .tick second => first == second
    | .wait first, .wait second => first == second
    | _, _ => false

instance : BEq Program where
  beq first second := first.timeBase == second.timeBase && first.stopTime == second.stopTime &&
    first.entries == second.entries

/-- The period of a run in positions. -/
def Run.positions (run : Run) (timeBase : Float) : Nat :=
  Number.toWord (Number.nearest (run.period * timeBase))

namespace Entry

/-- The run of an entry that is no wait. -/
def run? : Entry → Option Run
  | .tick run => some run
  | .wait _ => none

/-- The marker of an entry that is a wait. -/
def marker? : Entry → Option Marker
  | .tick _ => none
  | .wait marker => some marker

/-- The single events of an entry. -/
def events : Entry → List Event
  | .tick run => List.replicate run.repetitions (.tick run.period run.dualRate)
  | .wait marker => [.wait marker]

/-- Appends a run to entries that are listed from the last to the first.  A run of the same period
and rate as the last entry prolongs it. -/
def pushRun (run : Run) : List Entry → List Entry
  | .tick last :: rest =>
      if last.period == run.period && last.dualRate == run.dualRate then
        .tick { last with repetitions := last.repetitions + run.repetitions } :: rest
      else .tick run :: .tick last :: rest
  | entries => .tick run :: entries

/-- Appends an event to entries that are listed from the last to the first. -/
def pushEvent (entries : List Entry) : Event → List Entry
  | .tick period dualRate => pushRun ⟨period, 1, dualRate, none⟩ entries
  | .wait marker => .wait marker :: entries

end Entry

namespace Program

/-- The runs of a program, without its waits. -/
def runs (program : Program) : List Run :=
  program.entries.filterMap Entry.run?

/-- The waits of a program. -/
def markers (program : Program) : List Marker :=
  program.entries.filterMap Entry.marker?

/-- The ticks a line sees in a run. -/
def seenOn (line : ClockLine) (run : Run) : Bool :=
  line = .fast || run.dualRate

/-- The number of ticks on a line. -/
def tickCount (program : Program) (line : ClockLine) : Nat :=
  ((program.runs.filter (seenOn line)).map Run.repetitions).foldr (· + ·) 0

/-- The single events of a program. -/
def events (program : Program) : List Event :=
  program.entries.flatMap Entry.events

/-- The program with the given events, in which neighbouring ticks of the same period and rate are
one run. -/
def compress (timeBase stopTime : Float) (events : List Event) : Program :=
  ⟨timeBase, stopTime, (events.foldl Entry.pushEvent []).reverse⟩

/-- The ticks of runs that begin at a position. -/
def ticksFrom (timeBase : Float) (start : Nat) : List Run → List Tick
  | [] => []
  | run :: rest =>
      let period := run.positions timeBase
      (List.range run.repetitions).map
          (fun k => ⟨(start + k * period) % UInt64.size, run.dualRate⟩) ++
        ticksFrom timeBase ((start + period * run.repetitions) % UInt64.size) rest

/-- The single ticks of a program.  A wait takes no time on the grid. -/
def ticks (program : Program) : List Tick :=
  ticksFrom program.timeBase 0 program.runs

/-- The ticks that a line sees. -/
def lineTicks (program : Program) (line : ClockLine) : List Tick :=
  program.ticks.filter fun tick => line = .fast || tick.dualRate

/-- Runs cut off after a number of ticks. -/
def takeRuns : Nat → List Run → List Run
  | _, [] => []
  | count, run :: rest =>
      { run with repetitions := min count run.repetitions } ::
        takeRuns (count - run.repetitions) rest

/-- The first ticks of a program, without going through the others. -/
def firstTicks (program : Program) (count : Nat) : List Tick :=
  ticksFrom program.timeBase 0 (takeRuns count program.runs)

/-- The time in seconds of a tick on a line, counted from zero. -/
def tickTime? (program : Program) (line : ClockLine) (index : Nat) : Option Float :=
  (program.lineTicks line)[index]?.map fun tick =>
    TimeGrid.seconds tick.position program.timeBase

end Program

end Metronome
