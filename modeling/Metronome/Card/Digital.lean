/-
Module: Metronome.Card.Digital
Purpose: Levels as words of a digital output card, one word for each port and sample.
Trusted boundary: none
Main exports:
  DigitalCard, DigitalCard.ports, DigitalCard.validate, DigitalCard.encode
-/
import Metronome.Card.Basic
import Metronome.Grouping
import Metronome.Packing
import Metronome.Text.Hex

namespace Metronome

/-- A digital output card: the lines of a port and the buffer. -/
structure DigitalCard where
  name : String
  portWidth : Nat
  capacity : Nat
deriving Inhabited

namespace DigitalCard

open Packing (Line)

/-- A card whose ports have between one line and as many as a word has bits. -/
def create (name : String) (portWidth capacity : Nat) : Except Fault DigitalCard :=
  if portWidth = 0 ∨ Packing.widest < portWidth then
    .error (.setting (.portWidth name Packing.widest portWidth))
  else .ok ⟨name, portWidth, capacity⟩

/-- Adds a channel's line to its port. -/
def addChannel (card : DigitalCard) (ports : List (Nat × List Line))
    (entry : String × List Float) : Except Fault (List (Nat × List Line)) := do
  let (channel, samples) := entry
  let (port, line) ← ChannelName.lineNumbers channel
  if card.portWidth ≤ line then
    throw (.limit card.name (.lineMissing line channel card.portWidth))
  return Grouping.update port [] (fun lines => lines ++ [⟨line, Packing.levels samples⟩]) ports

/-- The lines of each port that has channels, in the order of the ports. -/
def ports (card : DigitalCard) (device : SampledDevice) :
    Except Fault (List (Nat × List Line)) :=
  device.samples.entries.foldlM card.addChannel []

/-- Accepts a device whose samples fit the buffer and whose lines the card has. -/
def validate (card : DigitalCard) (compiled : Compiled) : Except Fault Unit := do
  let device ← Card.sampled compiled card.name .digitalCard
  Card.checkBuffer card.name card.capacity device
  let _ ← card.ports device

/-- The name of a port's columns. -/
def portName (port : Nat) : String :=
  "port" ++ toString port

/-- Adds the words of a port, as hexadecimal and as numbers. -/
def addPort (card : DigitalCard) (artifact : Artifact) (port : Nat × List Line) :
    Except Fault Artifact := do
  let words ← Packing.pack port.2 card.portWidth
  let digits := (card.portWidth + 3) / 4
  return artifact
    |>.insert (portName port.1 ++ "/hex") (.hex (words.map (Text.hexWord digits)))
    |>.insert (portName port.1) (.words words)

/-- Two columns for each port that has channels. -/
def encode (card : DigitalCard) (compiled : Compiled) : Except Fault Artifact := do
  let device ← Card.sampled compiled card.name .digitalCard
  (← card.ports device).foldlM card.addPort (.empty card.name)

end DigitalCard

end Metronome
