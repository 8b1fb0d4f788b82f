/-
Module: Metronome.Settings
Purpose: What a compilation can be tuned by, with defaults and limits.
Trusted boundary: none
Main exports:
  Settings, Settings.check
-/
import Metronome.Fault

namespace Metronome

/-- The settings of a compilation: the positions per second, the most ticks a clock program may
have, and what origin times after a wait are measured from. -/
structure Settings where
  timeBase : Float := 1000000000
  maxTicks : Nat := 50000000
  waitTiming : WaitTiming := .ideal
deriving Inhabited

namespace Settings

/-- Accepts settings whose time base is a finite whole number of at least one position per second
and that allow a tick. -/
def check (settings : Settings) : Except Fault Unit :=
  if !(settings.timeBase.isFinite && 1 ≤ settings.timeBase) then
    .error (.setting (.timeBaseRange settings.timeBase))
  else if !Number.isWhole settings.timeBase then
    .error (.setting (.timeBaseFraction settings.timeBase))
  else if settings.maxTicks = 0 then .error (.setting .noTicks)
  else .ok ()

end Settings

end Metronome
