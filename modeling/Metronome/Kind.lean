/-
Module: Metronome.Kind
Purpose: The closed vocabularies of a setup: clock lines, channel and device kinds, waits' timing.
Trusted boundary: none
Main exports:
  ClockLine, ChannelKind, DeviceKind, WaitTiming
-/

namespace Metronome

/-- The two lines of a pseudoclock.  The fast line ticks on every tick of the program, the slow line
on the dual-rate ticks alone. -/
inductive ClockLine where
  | fast
  | slow
deriving Repr, Inhabited, DecidableEq

/-- The values a channel can produce: any finite number, or the levels `0` and `1`. -/
inductive ChannelKind where
  | analog
  | digital
deriving Repr, Inhabited, DecidableEq

/-- The cards a pseudoclock drives: analog outputs, digital outputs and synthesizers. -/
inductive DeviceKind where
  | analogCard
  | digitalCard
  | synthesizer
deriving Repr, Inhabited, DecidableEq

/-- What the origin times after a wait are measured from: the planned timeline, or the trigger that
ends the wait. -/
inductive WaitTiming where
  | ideal
  | triggered
deriving Repr, Inhabited, DecidableEq

/-- The name of a clock line. -/
def ClockLine.label : ClockLine → String
  | .fast => "Fast"
  | .slow => "Slow"

/-- The name of a channel kind. -/
def ChannelKind.label : ChannelKind → String
  | .analog => "Analog"
  | .digital => "Digital"

/-- The name of a device kind. -/
def DeviceKind.label : DeviceKind → String
  | .analogCard => "AO"
  | .digitalCard => "DO"
  | .synthesizer => "DDS"

/-- The form of the channel names that a device kind admits. -/
def DeviceKind.channelForm : DeviceKind → String
  | .analogCard => "ao(number)"
  | .digitalCard => "port(number)/line(number)"
  | .synthesizer => "dds(number)/(freq|amp|phase|gate)"

/-- The name of a timing in the settings. -/
def WaitTiming.label : WaitTiming → String
  | .ideal => "ideal"
  | .triggered => "triggered"

end Metronome
