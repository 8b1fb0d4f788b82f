/-
Module: Metronome.Card.Pulse
Purpose: The clock program as instructions of a pulse generator.
Trusted boundary: none
Main exports:
  Opcode, PulseInstruction, PulseInstruction.word, PulseGenerator, PulseGenerator.instructions
-/
import Metronome.Card.Basic
import Metronome.Text.Hex

/-!
A pulse generator counts cycles of a reference clock.  A tick is a pulse that is high for half of
its cycles, rounded down, and low for the rest; a run of ticks is one instruction, or several if
its repetitions exceed the 32-bit field.  A wait is an instruction that holds its timeout in
milliseconds, zero for none, and the program ends with a stop.
-/

namespace Metronome

/-- What an instruction does. -/
inductive Opcode where
  | stop
  | continue
  | wait
deriving Repr, Inhabited, DecidableEq

/-- The number of an opcode. -/
def Opcode.code : Opcode → Nat
  | .stop => 0
  | .continue => 1
  | .wait => 2

/-- An instruction of a pulse generator. -/
structure PulseInstruction where
  opcode : Opcode
  repetitions : Nat
  high : Nat
  low : Nat
deriving Repr, Inhabited, DecidableEq

/-- The instruction as hexadecimal digits: two of the opcode, and eight of each of the other
fields. -/
def PulseInstruction.word (instruction : PulseInstruction) : String :=
  Text.hexWord 2 instruction.opcode.code ++ Text.hexWord 8 instruction.repetitions ++
    Text.hexWord 8 instruction.high ++ Text.hexWord 8 instruction.low

/-- A pulse generator, its reference clock and its limits. -/
structure PulseGenerator where
  name : String
  /-- Cycles per second. -/
  clockFreq : Float
  /-- The fewest cycles of half a pulse. -/
  minHalfPeriod : Nat := 5
  maxInstructions : Nat := 4096
deriving Inhabited

namespace PulseGenerator

/-- The largest number that a field of an instruction holds. -/
def fieldMax : Nat := UInt32.size - 1

/-- A generator with a positive reference clock. -/
def create (name : String) (clockFreq : Float) : Except Fault PulseGenerator :=
  if clockFreq.isFinite && 0 < clockFreq then .ok { name, clockFreq }
  else .error (.setting (.generatorClock name clockFreq))

/-- The generator with other limits. -/
def withLimits (generator : PulseGenerator) (minHalfPeriod maxInstructions : Nat) :
    PulseGenerator :=
  { generator with minHalfPeriod, maxInstructions }

/-- The instruction for repeated ticks.  Their period has to be a whole number of cycles, to a
millionth of itself. -/
def tickInstruction (generator : PulseGenerator) (period : Float) (repetitions : Nat) :
    Except Fault PulseInstruction :=
  let refuse (cause : LimitCause) : Except Fault PulseInstruction :=
    .error (.limit generator.name cause)
  let exact := period * generator.clockFreq
  let cycles := Number.nearest exact
  if 1e-6 * Number.atLeast 1 cycles < (exact - cycles).abs then
    refuse (.periodOffCycle period generator.clockFreq)
  else
    let count := Number.toWord cycles
    let high := count / 2
    let low := count - high
    if high < generator.minHalfPeriod then refuse (.periodTooShort period generator.minHalfPeriod)
    else if fieldMax < high ∨ fieldMax < low then refuse (.periodTooLong period)
    else .ok ⟨.continue, repetitions, high, low⟩

/-- The instruction for a wait. -/
def waitInstruction (generator : PulseGenerator) (marker : Marker) :
    Except Fault PulseInstruction :=
  match marker.timeout with
  | none => .ok ⟨.wait, 1, 0, 0⟩
  | some timeout =>
      let milliseconds := Number.nearest (timeout * 1000)
      if milliseconds < 1 || Number.ofWord fieldMax < milliseconds then
        .error (.limit generator.name (.timeoutRange timeout marker.label fieldMax))
      else .ok ⟨.wait, 1, Number.toWord milliseconds, 0⟩

/-- Repetitions split into numbers that a field holds, all but the last of them the largest. -/
def split (repetitions : Nat) : List Nat :=
  let rest := repetitions % fieldMax
  List.replicate (repetitions / fieldMax) fieldMax ++ if rest = 0 then [] else [rest]

/-- The instructions for an entry of the program. -/
def entryInstructions (generator : PulseGenerator) : Entry → Except Fault (List PulseInstruction)
  | .tick run => (split run.repetitions).mapM (generator.tickInstruction run.period)
  | .wait marker => List.singleton <$> generator.waitInstruction marker

/-- The instructions for entries, after those already made, which are listed from the last to the
first.  The entries that follow once the limit is reached are not looked at. -/
def entriesInstructions (generator : PulseGenerator) (made : List PulseInstruction) (count : Nat) :
    List Entry → Except Fault (List PulseInstruction × Nat)
  | [] => .ok (made, count)
  | entry :: rest => do
      let more ← generator.entryInstructions entry
      let count := count + more.length
      if generator.maxInstructions ≤ count then return (more.reverse ++ made, count)
      else generator.entriesInstructions (more.reverse ++ made) count rest

/-- The instructions for a program, with a stop at the end, within the limit. -/
def instructions (generator : PulseGenerator) (program : Program) :
    Except Fault (List PulseInstruction) := do
  let (made, count) ← generator.entriesInstructions [] 0 program.entries
  if generator.maxInstructions < count + 1 then
    throw (.limit generator.name (.instructionCount generator.maxInstructions))
  return (⟨.stop, 0, 0, 0⟩ :: made).reverse

/-- Accepts the program of the clock that the generator is named after. -/
def validate (generator : PulseGenerator) (compiled : Compiled) : Except Fault Unit := do
  if compiled.clockName ≠ generator.name then
    throw (.unknownDevice generator.name [compiled.clockName])
  let _ ← generator.instructions compiled.program

/-- The instructions as columns and as words. -/
def encode (generator : PulseGenerator) (compiled : Compiled) : Except Fault Artifact := do
  let instructions ← generator.instructions compiled.program
  let column (field : PulseInstruction → Nat) : Dataset :=
    .integers (instructions.map fun instruction => (field instruction : Int))
  return (Artifact.empty generator.name)
    |>.insert "opcode" (column fun instruction => instruction.opcode.code)
    |>.insert "repetitions" (column PulseInstruction.repetitions)
    |>.insert "high_cycles" (column PulseInstruction.high)
    |>.insert "low_cycles" (column PulseInstruction.low)
    |>.insert "instructions" (.hex (instructions.map PulseInstruction.word))

end PulseGenerator

end Metronome
