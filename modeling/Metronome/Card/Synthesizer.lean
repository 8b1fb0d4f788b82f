/-
Module: Metronome.Card.Synthesizer
Purpose: Frequencies, amplitudes and phases as tuning words of a digital synthesizer.
Trusted boundary: none
Main exports:
  Composite, Synthesizer, Synthesizer.outputs, Synthesizer.validate, Synthesizer.encode
-/
import Metronome.Card.Basic
import Metronome.Grouping

/-!
The parts of a composite output are channels of their own and are brought together by the number
in their names.  A frequency is encoded as a fraction of the reference clock on 32 bits, an
amplitude on 14 bits, and a phase, wrapped into one turn, on 16 bits.
-/

namespace Metronome

/-- The samples of a composite output's parts. -/
structure Composite where
  freq : Option (List Float) := none
  amp : Option (List Float) := none
  phase : Option (List Float) := none
  gate : Option (List Float) := none
deriving Inhabited

/-- The composite output with the samples of one part set. -/
def Composite.set (part : Part) (samples : List Float) (composite : Composite) : Composite :=
  match part with
  | .freq => { composite with freq := some samples }
  | .amp => { composite with amp := some samples }
  | .phase => { composite with phase := some samples }
  | .gate => { composite with gate := some samples }

/-- A synthesizer: its reference clock and its buffer. -/
structure Synthesizer where
  name : String
  /-- Cycles per second. -/
  clockFreq : Float
  capacity : Nat
deriving Inhabited

namespace Synthesizer

/-- The bits of a frequency, of an amplitude and of a phase. -/
def freqBits : Nat := 32
def ampBits : Nat := 14
def phaseBits : Nat := 16

/-- The double nearest to one turn. -/
def turn : Float := 6.283185307179586

/-- The largest finite double. -/
def largest : Float := Float.ofBits 0x7FEFFFFFFFFFFFFF

/-- A synthesizer with a positive reference clock. -/
def create (name : String) (clockFreq : Float) (capacity : Nat) : Except Fault Synthesizer :=
  if clockFreq.isFinite && 0 < clockFreq then .ok ⟨name, clockFreq, capacity⟩
  else .error (.setting (.synthesizerClock name clockFreq))

/-- Sets a channel's part of its composite output. -/
def addChannel (card : Synthesizer) (outputs : List (Nat × Composite))
    (entry : String × List Float) : Except Fault (List (Nat × Composite)) := do
  let (id, part) ← ChannelName.partNumber card.name entry.1
  return Grouping.update id {} (Composite.set part entry.2) outputs

/-- The composite outputs that have channels, in the order of their numbers. -/
def outputs (card : Synthesizer) (device : SampledDevice) :
    Except Fault (List (Nat × Composite)) :=
  device.samples.entries.foldlM card.addChannel []

/-- Accepts the samples of a part that are in a range. -/
def checkPart (card : Synthesizer) (compiled : Compiled) (line : ClockLine) (part : String)
    (samples : Option (List Float)) (low high : Float) : Except Fault Unit :=
  match samples with
  | none => .error (.limit card.name (.partMissing part))
  | some samples =>
      match Card.outside? low high samples with
      | none => .ok ()
      | some (index, value) =>
          .error (.limit card.name
            (.partRange part value (compiled.tickTime line index) low high))

/-- Accepts a composite output with all its analog parts, each in its range.  Every finite phase can
be wrapped. -/
def checkOutput (card : Synthesizer) (compiled : Compiled) (line : ClockLine)
    (output : Nat × Composite) : Except Fault Unit := do
  let (id, composite) := output
  let check := fun part => card.checkPart compiled line (ChannelName.part id part)
  check .freq composite.freq 0 (card.clockFreq / 2)
  check .amp composite.amp 0 1
  check .phase composite.phase (-largest) largest

/-- Accepts a device whose samples fit the buffer and whose outputs are complete and in range. -/
def validate (card : Synthesizer) (compiled : Compiled) : Except Fault Unit := do
  let device ← Card.sampled compiled card.name .synthesizer
  Card.checkBuffer card.name card.capacity device
  (← card.outputs device).forM (card.checkOutput compiled device.line)

/-- A frequency in steps, of which the reference clock has a given number. -/
def freqSteps {α : Type} [Mul α] [Div α] (freq clockFreq steps : α) : α :=
  freq * (steps / clockFreq)

/-- A phase inside one turn in steps, of which the turn has a given number. -/
def phaseSteps {α : Type} [Mul α] [Div α] (phase turn steps : α) : α :=
  phase / turn * steps

/-- The tuning word of a frequency. -/
def freqWord (card : Synthesizer) (freq : Float) : Int :=
  Number.toSigned (Number.nearest
    (freqSteps freq card.clockFreq (Number.ofWord (1 <<< freqBits))))

/-- The scale factor of an amplitude. -/
def ampWord (amp : Float) : Int :=
  quantize amp 0 1 ampBits

/-- The offset word of a phase; a whole turn is none. -/
def phaseWord (phase : Float) : Int :=
  let steps := phaseSteps (Number.wrap phase turn) turn (Number.ofWord (1 <<< phaseBits))
  (Number.toWord (Number.nearest steps) % 1 <<< phaseBits : Nat)

/-- Adds the columns of a composite output. -/
def addOutput (card : Synthesizer) (artifact : Artifact) (output : Nat × Composite) :
    Except Fault Artifact :=
  let (id, composite) := output
  let name := fun column => "dds" ++ toString id ++ "/" ++ column
  match composite.freq, composite.amp, composite.phase with
  | some freq, some amp, some phase =>
      let encoded := artifact
        |>.insert (name "ftw") (.integers (freq.map card.freqWord))
        |>.insert (name "asf") (.integers (amp.map ampWord))
        |>.insert (name "pow") (.integers (phase.map phaseWord))
      match composite.gate with
      | none => .ok encoded
      | some gate => .ok (encoded.insert (name "gate") (.integers (gate.map Number.toSigned)))
  | _, _, _ => .error (.limit card.name (.outputIncomplete id))

/-- Three columns for each composite output, and a fourth for its gate. -/
def encode (card : Synthesizer) (compiled : Compiled) : Except Fault Artifact := do
  let device ← Card.sampled compiled card.name .synthesizer
  (← card.outputs device).foldlM card.addOutput (.empty card.name)

end Synthesizer

end Metronome
