/-
Module: Metronome.Card.Analog
Purpose: Voltages as codes of an analog output card.
Trusted boundary: none
Main exports:
  AnalogCard, AnalogCard.validate, AnalogCard.encode
-/
import Metronome.Card.Basic

namespace Metronome

/-- An analog output card: its range in volts, its resolution and its buffer. -/
structure AnalogCard where
  name : String
  low : Float
  high : Float
  bits : Nat
  capacity : Nat
deriving Inhabited

namespace AnalogCard

/-- A card with a finite nonempty range and at most 32 bits. -/
def create (name : String) (low high : Float) (bits capacity : Nat) : Except Fault AnalogCard :=
  if !(low.isFinite && high.isFinite && low < high) then
    .error (.setting (.outputRange name low high))
  else if bits = 0 ∨ 32 < bits then .error (.setting (.resolution name bits))
  else .ok ⟨name, low, high, bits, capacity⟩

/-- Accepts samples that lie in the range of the card. -/
def checkRange (card : AnalogCard) (compiled : Compiled) (line : ClockLine) (channel : String)
    (samples : List Float) : Except Fault Unit :=
  match Card.outside? card.low card.high samples with
  | none => .ok ()
  | some (index, value) =>
      .error (.limit card.name
        (.voltage channel value (compiled.tickTime line index) card.low card.high))

/-- Accepts a device whose samples fit the buffer and the range. -/
def validate (card : AnalogCard) (compiled : Compiled) : Except Fault Unit := do
  let device ← Card.sampled compiled card.name .analogCard
  Card.checkBuffer card.name card.capacity device
  device.samples.entries.forM fun (channel, samples) =>
    card.checkRange compiled device.line channel samples

/-- One column of codes for each channel. -/
def encode (card : AnalogCard) (compiled : Compiled) : Except Fault Artifact := do
  let device ← Card.sampled compiled card.name .analogCard
  return device.samples.entries.foldl (fun artifact (channel, samples) =>
    artifact.insert channel
      (.integers (samples.map fun value => quantize value card.low card.high card.bits)))
    (.empty card.name)

end AnalogCard

end Metronome
