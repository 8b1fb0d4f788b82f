/-
Module: Metronome.Card.Basic
Purpose: What all cards share: finding their device and the limit of their buffer.
Trusted boundary: none
Main exports:
  Card.sampled, Card.checkBuffer, Card.outside?
-/
import Metronome.Artifact
import Metronome.Experiment.Compiled

namespace Metronome.Card

/-- The samples of the device that a card of a kind is named after. -/
def sampled (compiled : Compiled) (name : String) (kind : DeviceKind) :
    Except Fault SampledDevice := do
  let device ← compiled.device name
  if device.kind = kind then return device else throw (.wrongDevice name kind)

/-- Accepts a device whose samples a buffer holds. -/
def checkBuffer (name : String) (capacity : Nat) (device : SampledDevice) : Except Fault Unit :=
  if capacity < device.tickCount then .error (.limit name (.sampleCount device.tickCount capacity))
  else .ok ()

/-- The first sample outside a range, and its index. -/
def outside? (low high : Float) (samples : List Float) : Option (Nat × Float) :=
  let outside := fun (value : Float) => value < low || high < value
  match samples.findIdx? outside, samples.find? outside with
  | some index, some value => some (index, value)
  | _, _ => none

end Metronome.Card
