/-
Module: Metronome.Card
Purpose: The four cards under one name.
Trusted boundary: none
Main exports:
  Card, Card.name, Card.validate, Card.encode
-/
import Metronome.Card.Analog
import Metronome.Card.Digital
import Metronome.Card.Pulse
import Metronome.Card.Synthesizer

namespace Metronome

/-- A card that encodes the compiled samples of the device, or the program of the clock, that it is
named after. -/
inductive Card where
  | pulse (generator : PulseGenerator)
  | analog (card : AnalogCard)
  | digital (card : DigitalCard)
  | synthesizer (card : Synthesizer)
deriving Inhabited

namespace Card

/-- The device a card encodes. -/
def name : Card → String
  | .pulse generator => generator.name
  | .analog card => card.name
  | .digital card => card.name
  | .synthesizer card => card.name

/-- Accepts what the card can encode.  No value is ever clamped. -/
def validate : Card → Compiled → Except Fault Unit
  | .pulse generator => generator.validate
  | .analog card => card.validate
  | .digital card => card.validate
  | .synthesizer card => card.validate

/-- The artifact of the card's device. -/
def encode : Card → Compiled → Except Fault Artifact
  | .pulse generator => generator.encode
  | .analog card => card.encode
  | .digital card => card.encode
  | .synthesizer card => card.encode

end Card

end Metronome
