/-
Module: Metronome.Proofs.Failures
Purpose: The checks that a compilation can fail in.
Trusted boundary: none
Main exports:
  TimeGrid.position_failsWith, Output.checkPlacement_failsWith, Schedule.checkWait_failsWith,
  Schedule.of_failsWith, ProgramDraft.pushSegment_failsWith, Pseudoclock.program_failsWith,
  Experiment.stopPosition_failsWith, Experiment.compile_failsWith
-/
import Metronome.Proofs.Compilation

/-!
To say something of every fault that a compilation can end in, it is enough to say it of the faults
of single checks: that of the stop, those of each placement and each wait against the stop, those of
the walk over the segments, and those of the samples of each channel.
-/

namespace Metronome

variable {allowed : Fault → Prop}

/-! ### Single checks -/

section Checks

variable (timelines : ∀ output time cause, allowed (.timeline output time cause))
include timelines

theorem TimeGrid.position_failsWith {t timeBase : Float} {output : String} :
    Checks.FailsWith allowed (position t timeBase output) :=
  Checks.failsWith_ite (Checks.failsWith_error (timelines ..))
    (Checks.failsWith_ite (Checks.failsWith_error (timelines ..)) (Checks.failsWith_ok _))

theorem Output.checkPlacement_failsWith {output : Output} {timeBase : Float} {stop : Nat}
    {placement : Placement} :
    Checks.FailsWith allowed (output.checkPlacement timeBase stop placement) := by
  unfold checkPlacement
  refine Checks.failsWith_ite (Checks.failsWith_error (timelines ..)) ?_
  cases placement.ramp with
  | none => exact Checks.failsWith_ok ()
  | some span =>
      exact Checks.failsWith_ite (Checks.failsWith_error (timelines ..))
        (Checks.failsWith_ite (Checks.failsWith_error (timelines ..))
          (Checks.failsWith_ite (Checks.failsWith_error (timelines ..)) (Checks.failsWith_ok ())))

theorem Schedule.checkWait_failsWith {clock : Pseudoclock} {windows : List Window}
    {timeBase : Float} {stop : Nat} {wait : Wait}
    (conflicts : ∀ first second time cause, allowed (.conflict first second time cause)) :
    Checks.FailsWith allowed (checkWait clock windows timeBase stop wait) := by
  unfold checkWait
  refine Checks.failsWith_ite (Checks.failsWith_error (timelines ..)) ?_
  cases windows.find? fun window => window.spans wait.position with
  | none => exact Checks.failsWith_ok ()
  | some window => exact Checks.failsWith_error (conflicts ..)

theorem Experiment.stopPosition_failsWith {experiment : Experiment} {stop : Option Float} :
    Checks.FailsWith allowed (experiment.stopPosition stop) := by
  cases stop with
  | none => exact Checks.failsWith_ok _
  | some t =>
      exact (TimeGrid.position_failsWith timelines).bind fun position _ =>
        Checks.failsWith_ite (Checks.failsWith_error (timelines ..)) (Checks.failsWith_ok _)

end Checks

/-! ### Schedules, programs and compilations -/

/-- A schedule is refused for a stop at the start, for a placement or for a wait. -/
theorem Schedule.of_failsWith {clock : Pseudoclock} {outputs : List Output} {timeBase : Float}
    {stop : Nat} (atStart : stop = 0 → allowed (.timeline clock.name 0 .stopNotPositive))
    (placements : ∀ output ∈ outputs, ∀ placement ∈ output.timeline.items,
      Checks.FailsWith allowed (output.checkPlacement timeBase stop placement))
    (waits : ∀ windows, ∀ wait ∈ clock.waits.items,
      Checks.FailsWith allowed (checkWait clock windows timeBase stop wait)) :
    Checks.FailsWith allowed (Schedule.of clock outputs timeBase stop) := by
  unfold Schedule.of
  split
  · rename_i isStart
    exact Checks.failsWith_error (atStart isStart)
  · refine Checks.FailsWith.bind ?_ fun _ _ => Checks.FailsWith.bind ?_ fun _ _ =>
      Checks.failsWith_ok _
    · exact Checks.failsWith_forM fun output member =>
        Checks.failsWith_forM (placements output member)
    · exact Checks.failsWith_forM (waits _)

/-- The walk fails for ramps in conflict and for too many ticks. -/
theorem ProgramDraft.pushSegment_failsWith {clockName : String} {settings : Settings}
    {schedule : Schedule} {draft : ProgramDraft} {segment : Segment}
    (conflicts : ∀ first second time cause, allowed (.conflict first second time cause))
    (limits : ∀ device cause, allowed (.limit device cause)) :
    Checks.FailsWith allowed (pushSegment clockName settings schedule draft segment) := by
  refine Checks.FailsWith.bind ?_ fun period _ => ?_
  · unfold Window.commonPeriod
    split
    · exact Checks.failsWith_ok none
    · split
      · exact Checks.failsWith_ok _
      · exact Checks.failsWith_error (conflicts ..)
  · exact Checks.failsWith_ite (Checks.failsWith_error (limits ..)) (Checks.failsWith_ok _)

theorem Pseudoclock.program_failsWith {clock : Pseudoclock} {outputs : List Output} {stop : Nat}
    {settings : Settings} (atStart : stop = 0 → allowed (.timeline clock.name 0 .stopNotPositive))
    (placements : ∀ output ∈ outputs, ∀ placement ∈ output.timeline.items,
      Checks.FailsWith allowed (output.checkPlacement settings.timeBase stop placement))
    (waits : ∀ windows, ∀ wait ∈ clock.waits.items,
      Checks.FailsWith allowed (Schedule.checkWait clock windows settings.timeBase stop wait))
    (conflicts : ∀ first second time cause, allowed (.conflict first second time cause))
    (limits : ∀ device cause, allowed (.limit device cause)) :
    Checks.FailsWith allowed (clock.program outputs stop settings) := by
  refine Checks.FailsWith.bind (Schedule.of_failsWith atStart placements waits)
    fun schedule _ => Checks.FailsWith.bind ?_ fun _ _ => Checks.failsWith_ok _
  exact Checks.failsWith_foldlM
    (fun _ _ _ => ProgramDraft.pushSegment_failsWith conflicts limits) _

/-- A compilation fails for the stop, in the program, or in the samples of a channel. -/
theorem Experiment.compile_failsWith {experiment : Experiment} {stop : Option Float}
    (stops : Checks.FailsWith allowed (experiment.stopPosition stop))
    (programs : ∀ position, experiment.stopPosition stop = .ok position →
      Checks.FailsWith allowed
        (experiment.clock.program experiment.outputs position experiment.settings))
    (samples : ∀ program device found name channel, experiment.device device = .ok found →
      found.channel name = .ok channel →
      Checks.FailsWith allowed ((channel.toOutput found.line).samples program)) :
    Checks.FailsWith allowed (experiment.compile stop) := by
  refine stops.bind fun position ends => (programs position ends).bind fun program _ =>
    Checks.FailsWith.bind ?_ fun _ _ => Checks.failsWith_ok _
  refine Registry.failsWith_traverse fun entry registered => Checks.FailsWith.bind
    (Registry.failsWith_traverse fun inner member => ?_) fun _ _ => Checks.failsWith_ok _
  exact samples program entry.1 entry.2 inner.1 inner.2
    (device_eq_ok.2 (Registry.get?_eq_some_iff.2 registered))
    (Device.channel_eq_ok.2 (Registry.get?_eq_some_iff.2 member))

end Metronome
