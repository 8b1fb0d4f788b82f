/-
Module: Metronome.Packing
Purpose: Digital lines packed into words, one bit for each line.
Trusted boundary: none
Main exports:
  Packing.widest, Packing.pack, Packing.unpack, Packing.levels
-/
import Metronome.Fault

/-!
The lines of a port are written together, one word for each sample.  Bits without a line are zero.
-/

namespace Metronome.Packing

/-- The most bits a word can have. -/
def widest : Nat := 64

/-- The samples of one line and the bit it takes in every word. -/
structure Line where
  bit : Nat
  samples : List Bool
deriving Repr, Inhabited, DecidableEq

/-- Accepts lines of one length at distinct bits of the width, in order. -/
def checkLines (width length : Nat) (taken : List Nat) : List Line → Except PackingCause Unit
  | [] => .ok ()
  | line :: rest =>
      if line.samples.length ≠ length then
        .error (.unequalLength line.bit line.samples.length length)
      else if width ≤ line.bit then .error (.bitOutside line.bit width)
      else if line.bit ∈ taken then .error (.bitTaken line.bit)
      else checkLines width length (line.bit :: taken) rest

/-- Accepts lines that fit words of a width. -/
def check (lines : List Line) (width : Nat) : Except PackingCause Unit :=
  if width = 0 ∨ widest < width then .error (.wordWidth widest width)
  else if width < lines.length then .error (.tooManyLines lines.length width)
  else checkLines width ((lines.head?.map fun line => line.samples.length).getD 0) [] lines

/-- Sets one line's bit in the words. -/
def addLine (words : List Nat) (line : Line) : List Nat :=
  List.zipWith (fun word high => if high then word ||| 1 <<< line.bit else word) words line.samples

/-- The words of lines that fit a width; no lines make no words. -/
def pack (lines : List Line) (width : Nat) : Except Fault (List Nat) :=
  match check lines width with
  | .error cause => .error (.packing cause)
  | .ok () =>
      let length := (lines.head?.map fun line => line.samples.length).getD 0
      .ok (lines.foldl addLine (List.replicate length 0))

/-- One bit of every word. -/
def unpack (words : List Nat) (bit : Nat) : Except Fault (List Bool) :=
  if widest ≤ bit then .error (.packing (.bitOutside bit widest))
  else .ok (words.map fun word => word.testBit bit)

/-- The levels of samples: every value but zero is high. -/
def levels (samples : List Float) : List Bool :=
  samples.map fun value => value != 0

end Metronome.Packing
