/-
Module: Metronome.Placement
Purpose: Instructions at their places on a timeline.
Trusted boundary: none
Main exports:
  RampSpan, RampSpan.Fits, Placement, Placement.stop, Placement.order, Placement.text
-/
import Metronome.Instruction

/-!
A constant stands at one position.  A ramp has a domain from its start, inclusive, to its stop,
exclusive, and a sample period.  That an instruction and its domain go together is part of the
type, so no ramp without a domain and no empty domain ever reaches a timeline.
-/

namespace Metronome

/-- The domain of a ramp on the grid: where it ends, exclusively, and the positions between two of
its samples. -/
structure RampSpan where
  stop : Nat
  period : Nat
deriving Repr, Inhabited, DecidableEq

/-- A domain fits an instruction at a start: constants have none, and a ramp has a nonempty one
with a positive sample period. -/
def RampSpan.Fits (start : Nat) (instruction : Instruction) : Option RampSpan → Prop
  | none => instruction.isRamp = false
  | some span => instruction.isRamp = true ∧ start < span.stop ∧ 0 < span.period

/-- An instruction at its place on a timeline. -/
structure Placement where
  start : Nat
  ramp : Option RampSpan
  instruction : Instruction
  fits : RampSpan.Fits start instruction ramp

namespace Placement

instance : Inhabited Placement where
  default := ⟨0, none, Instruction.constant 0, rfl⟩

/-- The last position an instruction occupies: the end of a ramp, the start of a constant. -/
def stop (placement : Placement) : Nat :=
  match placement.ramp with
  | none => placement.start
  | some span => span.stop

/-- Placements are ordered by their starts alone. -/
def order (first second : Placement) : Ordering :=
  compare first.start second.start

/-- The instruction and the positions it occupies. -/
def text (placement : Placement) : String :=
  let positions := match placement.ramp with
    | none => toString placement.start
    | some span => toString placement.start ++ "-" ++ toString span.stop ++ ", every " ++
        toString span.period
  "InstrBook(" ++ placement.instruction.text ++ ", " ++ positions ++ ")"

/-- A placement does not end before it starts. -/
theorem start_le_stop (placement : Placement) : placement.start ≤ placement.stop := by
  obtain ⟨start, ramp, instruction, fits⟩ := placement
  cases ramp with
  | none => exact Nat.le_refl _
  | some span => exact Nat.le_of_lt fits.2.1

end Placement

end Metronome
