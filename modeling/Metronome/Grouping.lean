/-
Module: Metronome.Grouping
Purpose: Values gathered under numbers, in increasing order of the numbers.
Trusted boundary: none
Main exports:
  Grouping.update
-/

namespace Metronome.Grouping

/-- Changes the group of a number.  A number without a group gets the fresh one, changed, at its
place in the order. -/
def update {α : Type} (number : Nat) (fresh : α) (change : α → α) :
    List (Nat × α) → List (Nat × α)
  | [] => [(number, change fresh)]
  | (other, group) :: rest =>
      if number < other then (number, change fresh) :: (other, group) :: rest
      else if number = other then (other, change group) :: rest
      else (other, group) :: update number fresh change rest

end Metronome.Grouping
