/-
Module: Metronome.Placement.Checked
Purpose: The checked ways to make an instruction and to put it on a timeline.
Trusted boundary: none
Main exports:
  Instruction.ofArguments, Placement.of
-/
import Metronome.Fault

namespace Metronome

/-- An instruction from a shape and a dictionary.  An argument the shape needs and lacks is reported
before one that is not finite. -/
def Instruction.ofArguments (shape : Shape) (args : Arguments) : Except Fault Instruction :=
  match shape.required.find? fun name => (args.lookup name).isNone with
  | some name => .error (.setting (.argumentMissing shape name))
  | none =>
      match args.find? fun entry => !entry.2.isFinite with
      | some (name, value) => .error (.setting (.argumentNotFinite shape name value))
      | none => .ok ⟨shape, args⟩

namespace Placement

/-- An instruction at a start, with the domain of a ramp.  A ramp needs a nonempty domain and a
positive sample period, and a constant must not have a domain. -/
def of (start : Nat) (ramp : Option RampSpan) (instruction : Instruction) :
    Except Fault Placement :=
  let refuse (cause : PlacementCause) : Except Fault Placement :=
    .error (.setting (.placement instruction start cause))
  match ramp with
  | none =>
      if constant : instruction.isRamp = false then .ok ⟨start, none, instruction, constant⟩
      else refuse .rampWithoutDomain
  | some span =>
      if ramps : instruction.isRamp = true then
        if nonempty : start < span.stop then
          if sampled : 0 < span.period then
            .ok ⟨start, some span, instruction, ramps, nonempty, sampled⟩
          else refuse .zeroPeriod
        else refuse (.emptyDomain span.stop start)
      else refuse .constantWithDomain

end Placement

end Metronome
