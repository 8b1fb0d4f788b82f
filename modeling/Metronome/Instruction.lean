/-
Module: Metronome.Instruction
Purpose: What an output is told to do: a constant level or one of three ramps, with named arguments.
Trusted boundary: the sine and the power of a double are the platform's
Main exports:
  Shape, Arguments, Instruction, Instruction.evaluate, Instruction.level, Instruction.text
-/
import Metronome.Number.Decimal

/-!
An instruction has a shape and a dictionary of numbers.  A shape names the arguments it cannot do
without; the others have defaults, and an argument that no shape knows is kept and shown but has no
effect.  Ramps are evaluated from the fraction of their domain that has passed, so that no error
accumulates from tick to tick, and hold their final value past the end.
-/

namespace Metronome

/-- The shapes of an instruction. -/
inductive Shape where
  | constant
  | linear
  | exponential
  | sine
deriving Repr, Inhabited, DecidableEq

namespace Shape

/-- The name of a shape. -/
def label : Shape → String
  | .constant => "CONST"
  | .linear => "LINRAMP"
  | .exponential => "EXPRAMP"
  | .sine => "SINE"

/-- The arguments a shape cannot do without, in the order in which they are looked for. -/
def required : Shape → List String
  | .constant => ["value"]
  | .linear => ["start", "end"]
  | .exponential => ["start", "end"]
  | .sine => ["freq"]

end Shape

/-- Named numbers, ordered by name and without a name twice. -/
abbrev Arguments := List (String × Float)

namespace Arguments

/-- Sets one argument, at its place in the order of names. -/
def set (name : String) (value : Float) : Arguments → Arguments
  | [] => [(name, value)]
  | (other, old) :: rest =>
      if name < other then (name, value) :: (other, old) :: rest
      else if name = other then (name, value) :: rest
      else (other, old) :: set name value rest

/-- The dictionary of a list of arguments; of a name that occurs twice the later value holds. -/
def ofList (entries : List (String × Float)) : Arguments :=
  entries.foldl (fun args entry => set entry.1 entry.2 args) []

end Arguments

/-- A shape with its arguments. -/
structure Instruction where
  shape : Shape
  args : Arguments
deriving Inhabited

namespace Instruction

/-- Every shape but the constant one spans a domain. -/
def isRamp (instruction : Instruction) : Bool :=
  instruction.shape ≠ .constant

/-- The value of an argument, or its default. -/
def argument (instruction : Instruction) (name : String) (fallback : Float) : Float :=
  (instruction.args.lookup name).getD fallback

/-- Holds one value. -/
def constant (value : Float) : Instruction :=
  ⟨.constant, Arguments.ofList [("value", value)]⟩

/-- Moves from one value to another at constant speed. -/
def linear (start finish : Float) : Instruction :=
  ⟨.linear, Arguments.ofList [("start", start), ("end", finish)]⟩

/-- An argument that is given only sometimes. -/
def optional (name : String) (value : Option Float) : List (String × Float) :=
  (value.map fun given => (name, given)).toList

/-- Moves from one value to another, approaching the offset exponentially. -/
def exponential (start finish : Float) (offset : Option Float) : Instruction :=
  ⟨.exponential,
    Arguments.ofList ([("start", start), ("end", finish)] ++ optional "offset" offset)⟩

/-- Oscillates around the offset. -/
def sine (freq : Float) (amplitude phase offset : Option Float) : Instruction :=
  ⟨.sine, Arguments.ofList ([("freq", freq)] ++ optional "amplitude" amplitude ++
    optional "phase" phase ++ optional "offset" offset)⟩

/-- The double nearest to half a turn. -/
def halfTurn : Float := 3.141592653589793

/-- The value at the fraction `x` of the domain, held before its start and past its end.  The
duration in seconds matters to a sine alone. -/
def evaluate (instruction : Instruction) (x duration : Float) : Float :=
  let x := Number.clampUnit x
  match instruction.shape with
  | .constant => instruction.argument "value" 0
  | .linear =>
      let start := instruction.argument "start" 0
      let finish := instruction.argument "end" 0
      start + (finish - start) * x
  | .exponential =>
      let start := instruction.argument "start" 0
      let finish := instruction.argument "end" 0
      let offset := instruction.argument "offset" 0
      offset + (start - offset) * ((finish - offset) / (start - offset)).pow x
  | .sine =>
      let freq := instruction.argument "freq" 0
      let amplitude := instruction.argument "amplitude" 1
      let offset := instruction.argument "offset" 0
      let phase := instruction.argument "phase" 0
      (2 * halfTurn * freq * x * duration + phase).sin * amplitude + offset

/-- The level of a constant, and the first value of a ramp. -/
def level (instruction : Instruction) : Float :=
  match instruction.shape with
  | .constant => instruction.argument "value" 0
  | _ => instruction.evaluate 0 0

/-- The shape and the arguments in the order of their names. -/
def text (instruction : Instruction) : String :=
  let args := instruction.args.map fun entry => entry.1 ++ ": " ++ Number.text entry.2
  "[" ++ instruction.shape.label ++ ", \x7b" ++ ", ".intercalate args ++ "\x7d]"

end Instruction

end Metronome
